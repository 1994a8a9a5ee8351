import EdgeGuard.Go.JsonRecords
import EdgeGuard.Go.JsonText

/-! Streams of compact texts. The text of an array or an object ends with its closing
bracket, so that no text which stops earlier is one. -/
namespace EdgeGuard.Go.Json

/-- A text that stops before the end of another one. -/
structure Cut (part whole : Str) : Prop where
  starts : part <+: whole
  proper : part ≠ whole

namespace Cut
variable {part first second : Str}

theorem not_nil (cut : Cut part []) : False := cut.proper (List.prefix_nil.mp cut.starts)

theorem nil_cons (c : UInt8) (rest : Str) : Cut [] (c :: rest) := ⟨List.nil_prefix, nofun⟩

theorem cons {c : UInt8} {rest : Str} (cut : Cut part (c :: rest)) :
    part = [] ∨ ∃ later, part = c :: later ∧ Cut later rest := by
  obtain ⟨starts, proper⟩ := cut
  cases part with
  | nil => exact .inl rfl
  | cons d later =>
    obtain ⟨rfl, inside⟩ := List.cons_prefix_cons.mp starts
    exact .inr ⟨later, rfl, inside, fun same => proper (congrArg _ same)⟩

/-- The cut is in the first text, or after it. -/
theorem append (cut : Cut part (first ++ second)) :
    Cut part first ∨ ∃ later, part = first ++ later ∧ Cut later second := by
  induction first generalizing part with
  | nil => exact .inr ⟨part, rfl, cut⟩
  | cons c first ih =>
    rcases cut.cons with rfl | ⟨later, rfl, inside⟩
    · exact .inl (nil_cons c first)
    · rcases ih inside with before | ⟨after, rfl, rest⟩
      · exact .inl ⟨List.cons_prefix_cons.mpr ⟨rfl, before.starts⟩, fun same => before.proper (List.cons.inj same).2⟩
      · exact .inr ⟨after, rfl, rest⟩

theorem take {whole : Str} (cut : Cut part whole) : ∃ n < whole.length, part = whole.take n := by
  have size : part.length < whole.length := by
    refine Nat.lt_of_le_of_ne cut.starts.length_le ?_
    intro same
    exact cut.proper (cut.starts.eq_of_length same)
  exact ⟨part.length, size, (List.prefix_iff_eq_take.mp cut.starts)⟩

end Cut

/-- A text without a quote closes no string. -/
theorem unquote_open {part : Str} (opened : 34 ∉ part) : unquote part = none := by
  fun_induction unquote part with
  | case1 => rfl
  | case2 rest => exact absurd List.mem_cons_self opened
  | case3 high low rest ih =>
    have later : 34 ∉ rest := fun inside => opened (by simp [inside])
    simp [ih later]
  | case4 c rest _ ih =>
    have later : 34 ∉ rest := fun inside => opened (by simp [inside])
    simp [ih later]
  | case5 c rest _ _ _ ih =>
    have later : 34 ∉ rest := fun inside => opened (by simp [inside])
    simp [ih later]

theorem unquote_escapeByte (c : UInt8) (rest : Str) :
    unquote (escapeByte c ++ rest) = (unquote rest).map (fun read => (c :: read.1, read.2)) := by
  unfold escapeByte
  split
  · rename_i special
    rcases special with rfl | rfl
    · cases tail : unquote rest <;> simp [unquote, tail]
    · cases tail : unquote rest <;> simp [unquote, tail]
  · rename_i plain
    obtain ⟨noQuote, noBackslash⟩ := not_or.mp plain
    split
    · have bound := c.toNat_lt
      have high := fromHexChar_hexDigit (c.toNat / 16) (by omega)
      have low := fromHexChar_hexDigit (c.toNat % 16) (by omega)
      have join : UInt8.ofNat (c.toNat / 16 * 16 + c.toNat % 16) = c := by
        rw [Nat.div_add_mod', UInt8.ofNat_toNat]
      simp only [List.cons_append, List.nil_append, unquote, high, low, Option.bind_eq_bind, Option.bind_some, join]
      cases unquote rest <;> rfl
    · cases tail : unquote rest <;> simp [unquote, tail, noBackslash]

theorem hexDigit_unquoted : ∀ n < 16, hexDigit n ≠ 34 := by decide

theorem escapeByte_open {c : UInt8} {part : Str} (cut : Cut part (escapeByte c)) : 34 ∉ part := by
  unfold escapeByte at cut
  split at cut
  · rcases cut.cons with rfl | ⟨later, rfl, inside⟩
    · exact List.not_mem_nil
    · rcases inside.cons with rfl | ⟨last, rfl, empty⟩
      · decide
      · exact empty.not_nil.elim
  · rename_i plain
    obtain ⟨noQuote, _⟩ := not_or.mp plain
    intro member
    have inside := cut.starts.subset member
    split at inside
    · have bound := c.toNat_lt
      have high := (hexDigit_unquoted (c.toNat / 16) (by omega)).symm
      have low := (hexDigit_unquoted (c.toNat % 16) (by omega)).symm
      simp [high, low] at inside
    · exact noQuote (List.mem_singleton.mp inside).symm

theorem unquote_cut {s part : Str} (cut : Cut part (quoteRest s)) : unquote part = none := by
  induction s generalizing part with
  | nil =>
    rcases cut.cons with rfl | ⟨later, rfl, inside⟩
    · rfl
    · exact inside.not_nil.elim
  | cons c tail ih =>
    rcases Cut.append cut with inside | ⟨later, rfl, inside⟩
    · exact unquote_open (escapeByte_open inside)
    · rw [unquote_escapeByte, ih inside]
      rfl

/-- The text before a cut is no value, unless it is the start of a number. -/
def Refused (v : Value Int) (read : Option (Value Int × Str)) : Prop :=
  read = none ∨ ∃ n m, v = .number n ∧ read = some (.number m, [])

theorem stops_nil : Stops [] := nofun

theorem parseValue_nil (fuel : Nat) : parseValue fuel [] = none := by
  cases fuel <;> rfl

theorem parseValue_digits {part : Str} (fuel : Nat) (digits : ∀ c ∈ part, numeric c = true) :
    parseValue fuel part = none ∨ ∃ m, parseValue fuel part = some (.number m, []) := by
  cases fuel with
  | zero => exact .inl rfl
  | succ fuel =>
    obtain ⟨taken, dropped⟩ := numeric_split digits stops_nil
    rw [List.append_nil] at taken dropped
    have other {k : UInt8} {after : Str} (same : part = k :: after) (letter : numeric k = false) : False := by
      have first := digits k (by simp [same])
      rw [letter] at first
      contradiction
    unfold parseValue
    split
    · exact (other rfl rfl).elim
    · exact (other rfl rfl).elim
    · exact (other rfl rfl).elim
    · exact (other rfl rfl).elim
    · exact (other rfl rfl).elim
    · exact (other rfl rfl).elim
    · rw [taken, dropped]
      split
      · exact .inl rfl
      · exact .inr ⟨_, rfl⟩

/-- A cut in a value and what follows it: the value is not read, or the cut is in the rest. -/
theorem parseValue_cut_append {v : Value Int} {tail part : Str} {fuel : Nat}
    (refused : ∀ {part}, Cut part v.print → part.length < fuel → Refused v (parseValue fuel part))
    (opens : ∀ {later}, Cut later tail → Stops later) (nonempty : tail ≠ [])
    (cut : Cut part (v.print ++ tail)) (enough : part.length < fuel) :
    parseValue fuel part = none ∨
      ∃ w later, parseValue fuel part = some (w, later) ∧ Cut later tail ∧ later.length < fuel := by
  rcases cut.append with inside | ⟨later, rfl, rest⟩
  · rcases refused inside enough with none | ⟨n, m, _, number⟩
    · exact .inl none
    · refine .inr ⟨_, [], number, ?_, by simp; omega⟩
      cases tail with
      | nil => exact absurd rfl nonempty
      | cons c tail => exact .nil_cons c tail
  · rw [List.length_append] at enough
    exact .inr ⟨v, later, parseValue_print v fuel later (by omega) (opens rest), rest, by omega⟩

theorem cut_stops {c : UInt8} {rest later : Str} (letter : numeric c = false) (cut : Cut later (c :: rest)) :
    Stops later := by
  rcases cut.cons with rfl | ⟨_, rfl, _⟩
  · exact stops_nil
  · exact stops_cons letter _

theorem cut_stops_items {items : List (Value Int)} {later : Str} (cut : Cut later (printItems items)) :
    Stops later := by
  cases items with
  | nil => exact cut_stops rfl cut
  | cons item rest => exact cut_stops rfl cut

theorem cut_stops_members {members : List (Str × Value Int)} {later : Str}
    (cut : Cut later (printMembers members)) : Stops later := by
  cases members with
  | nil => exact cut_stops rfl cut
  | cons member rest => exact cut_stops rfl cut

theorem printItems_ne_nil (items : List (Value Int)) : printItems items ≠ [] := by
  cases items <;> simp [printItems]

theorem printMembers_ne_nil (members : List (Str × Value Int)) : printMembers members ≠ [] := by
  cases members <;> simp [printMembers]

/-- The name of a member and its colon, or a cut behind them. -/
theorem parseName_cut {name tail part : Str} (cut : Cut part (34 :: (quoteRest name ++ 58 :: tail))) :
    parseName part = none ∨ ∃ later, parseName part = some (name, later) ∧ Cut later tail ∧
      later.length < part.length := by
  rcases cut.cons with rfl | ⟨quoted, rfl, inside⟩
  · exact .inl rfl
  · rcases inside.append with before | ⟨colon, rfl, after⟩
    · exact .inl (by simp [parseName, unquote_cut before])
    · rcases after.cons with rfl | ⟨later, rfl, rest⟩
      · have closed := unquote_quoteRest name []
        rw [List.append_nil] at closed
        exact .inl (by simp [parseName, closed])
      · refine .inr ⟨later, parseName_print name later, rest, ?_⟩
        simp
        omega

mutual

theorem parseValue_cut (v : Value Int) (part : Str) (fuel : Nat) (cut : Cut part v.print)
    (enough : part.length < fuel) : Refused v (parseValue fuel part) := by
  obtain ⟨fuel, rfl⟩ := Nat.exists_eq_add_one_of_ne_zero (Nat.ne_zero_of_lt enough)
  cases v with
  | null =>
    obtain ⟨n, bound, rfl⟩ := cut.take
    left
    rcases n with _ | _ | _ | _ | n
    · rfl
    · rfl
    · rfl
    · rfl
    · simp only [Value.print, List.length_cons, List.length_nil] at bound
      omega
  | bool b =>
    obtain ⟨n, bound, rfl⟩ := cut.take
    left
    cases b with
    | true =>
      rcases n with _ | _ | _ | _ | n
      · rfl
      · rfl
      · rfl
      · rfl
      · simp only [Value.print, List.length_cons, List.length_nil] at bound
        omega
    | false =>
      rcases n with _ | _ | _ | _ | _ | n
      · rfl
      · rfl
      · rfl
      · rfl
      · rfl
      · simp only [Value.print, List.length_cons, List.length_nil] at bound
        omega
  | number n =>
    have digits : ∀ c ∈ part, numeric c = true := fun c member =>
      formatInt_numeric n c (cut.starts.subset member)
    rcases parseValue_digits (fuel + 1) digits with none | ⟨m, read⟩
    · exact .inl none
    · exact .inr ⟨n, m, rfl, read⟩
  | string s =>
    rcases cut.cons with rfl | ⟨quoted, rfl, inside⟩
    · exact .inl (parseValue_nil _)
    · exact .inl (by simp [parseValue, unquote_cut inside])
  | array items =>
    left
    cases items with
    | nil =>
      rcases cut.cons with rfl | ⟨rest, rfl, inside⟩
      · rfl
      · rcases inside.cons with rfl | ⟨_, rfl, empty⟩
        · simp [parseValue, parseValue_nil]
        · exact empty.not_nil.elim
    | cons item others =>
      rcases cut.cons with rfl | ⟨rest, rfl, inside⟩
      · exact parseValue_nil _
      · rw [List.length_cons] at enough
        have opens : rest.head? ≠ some 93 := by
          intro closes
          obtain ⟨later, whole⟩ := inside.starts
          cases rest with
          | nil => cases closes
          | cons c rest => exact print_head item (printItems others) (whole ▸ closes)
        simp only [parseValue, if_neg opens]
        rcases @parseValue_cut_append item (printItems others) rest fuel
          (fun cut enough => parseValue_cut item _ fuel cut enough) cut_stops_items
          (printItems_ne_nil others) inside (by omega) with none | ⟨w, later, read, behind, shorter⟩
        · simp [none]
        · simp [read, parseItems_cut others later fuel behind shorter]
  | object members =>
    left
    cases members with
    | nil =>
      rcases cut.cons with rfl | ⟨rest, rfl, inside⟩
      · rfl
      · rcases inside.cons with rfl | ⟨_, rfl, empty⟩
        · simp [parseValue, parseName]
        · exact empty.not_nil.elim
    | cons member others =>
      obtain ⟨name, value⟩ := member
      rcases cut.cons with rfl | ⟨rest, rfl, inside⟩
      · exact parseValue_nil _
      · rw [List.length_cons] at enough
        have opens : rest.head? ≠ some 125 := by
          rcases inside.cons with rfl | ⟨later, rfl, _⟩
          · nofun
          · simp
        simp only [parseValue, if_neg opens]
        rcases parseName_cut inside with none | ⟨after, named, behind, smaller⟩
        · simp [none]
        · rcases @parseValue_cut_append value (printMembers others) after fuel
            (fun cut enough => parseValue_cut value _ fuel cut enough) cut_stops_members
            (printMembers_ne_nil others) behind (by omega) with none | ⟨w, later, read, behind, shorter⟩
          · simp [named, none]
          · simp [named, read, parseMembers_cut others later fuel behind shorter]

theorem parseItems_cut (items : List (Value Int)) (part : Str) (fuel : Nat) (cut : Cut part (printItems items))
    (enough : part.length < fuel) : parseItems fuel part = none := by
  obtain ⟨fuel, rfl⟩ := Nat.exists_eq_add_one_of_ne_zero (Nat.ne_zero_of_lt enough)
  cases items with
  | nil =>
    rcases cut.cons with rfl | ⟨_, rfl, empty⟩
    · rfl
    · exact empty.not_nil.elim
  | cons item others =>
    rcases cut.cons with rfl | ⟨rest, rfl, inside⟩
    · rfl
    · rw [List.length_cons] at enough
      rcases @parseValue_cut_append item (printItems others) rest fuel
        (fun cut enough => parseValue_cut item _ fuel cut enough) cut_stops_items
        (printItems_ne_nil others) inside (by omega) with none | ⟨w, later, read, behind, shorter⟩
      · simp [parseItems, none]
      · simp [parseItems, read, parseItems_cut others later fuel behind shorter]

theorem parseMembers_cut (members : List (Str × Value Int)) (part : Str) (fuel : Nat)
    (cut : Cut part (printMembers members)) (enough : part.length < fuel) : parseMembers fuel part = none := by
  obtain ⟨fuel, rfl⟩ := Nat.exists_eq_add_one_of_ne_zero (Nat.ne_zero_of_lt enough)
  cases members with
  | nil =>
    rcases cut.cons with rfl | ⟨_, rfl, empty⟩
    · rfl
    · exact empty.not_nil.elim
  | cons member others =>
    obtain ⟨name, value⟩ := member
    rcases cut.cons with rfl | ⟨rest, rfl, inside⟩
    · rfl
    · rw [List.length_cons] at enough
      rcases parseName_cut inside with none | ⟨after, named, behind, smaller⟩
      · simp [parseMembers, none]
      · rcases @parseValue_cut_append value (printMembers others) after fuel
          (fun cut enough => parseValue_cut value _ fuel cut enough) cut_stops_members
          (printMembers_ne_nil others) behind (by omega) with none | ⟨w, later, read, behind, shorter⟩
        · simp [parseMembers, named, none]
        · simp [parseMembers, named, read, parseMembers_cut others later fuel behind shorter]

end

def space (c : UInt8) : Bool := c == 32 || c == 9 || c == 10 || c == 13

/-- `Decoder.Decode`: the value after leading white space. -/
def decodeNext (text : Str) : Option (Value Int × Str) :=
  match parseValue (text.length + 1) (text.dropWhile space) with
  | some (value, rest) => if value.depth ≤ maxNestingDepth then some (value, rest) else none
  | none => none

def lowerLetter (c : UInt8) : UInt8 := if 65 ≤ c ∧ c ≤ 90 then c + 32 else c

/-- The stream of compact texts, with names compared by their lower-case letters. -/
def compactStream : Stream Int where
  ofInt := id
  toInt := some
  formatTime := formatTime
  parseTime := parseTime
  fold := fun a b => a.map lowerLetter == b.map lowerLetter
  encode := Value.print
  next := decodeNext
  blank := fun text => text.all space

/-- An array or an object is read whatever follows it. -/
theorem parseValue_composite {v : Value Int} (composite : v.composite = true) (fuel : Nat) (rest : Str)
    (enough : v.print.length < fuel) : parseValue fuel (v.print ++ rest) = some (v, rest) := by
  obtain ⟨fuel, rfl⟩ := Nat.exists_eq_add_one_of_ne_zero (Nat.ne_zero_of_lt enough)
  cases v with
  | array items =>
    cases items with
    | nil => simp [Value.print, parseValue]
    | cons item others =>
      simp only [Value.print, List.length_cons, List.length_append] at enough
      have first := parseValue_print item fuel (printItems others ++ rest) (by omega) (stops_items others rest)
      have second := parseItems_print others fuel rest (by omega)
      have opens := print_head item (printItems others ++ rest)
      simp only [Value.print, List.cons_append, List.append_assoc, parseValue, if_neg opens, first,
        second, Option.bind_eq_bind, Option.bind_some]
  | object members =>
    cases members with
    | nil => simp [Value.print, parseValue]
    | cons member others =>
      obtain ⟨name, value⟩ := member
      simp only [Value.print, List.length_cons, List.length_append] at enough
      have first := parseValue_print value fuel (printMembers others ++ rest) (by omega) (stops_members others rest)
      have second := parseMembers_print others fuel rest (by omega)
      have opens : ((34 : UInt8) :: (quoteRest name ++ 58 :: (value.print ++
          (printMembers others ++ rest)))).head? ≠ some 125 := by simp
      simp only [Value.print, List.cons_append, List.append_assoc, parseValue, if_neg opens,
        parseName_print, first, second, Option.bind_eq_bind, Option.bind_some]
  | _ => contradiction

/-- Arrays and objects start with their bracket. -/
theorem print_composite {v : Value Int} (composite : v.composite = true) :
    ∃ c rest, v.print = c :: rest ∧ space c = false := by
  cases v with
  | array items => cases items <;> exact ⟨91, _, rfl, rfl⟩
  | object members =>
    cases members with
    | nil => exact ⟨123, _, rfl, rfl⟩
    | cons member others => exact ⟨123, _, rfl, rfl⟩
  | _ => contradiction

theorem compactStream_documented : compactStream.Documented where
  int := fun _ _ _ => rfl
  time := fun _ _ written => parseTime_formatTime written
  next := by
    intro value rest composite shallow
    obtain ⟨c, later, printed, visible⟩ := print_composite composite
    have kept : (value.print ++ rest).dropWhile space = value.print ++ rest := by
      simp [printed, visible]
    have read := parseValue_composite composite ((value.print ++ rest).length + 1) rest
      (by rw [List.length_append]; omega)
    change decodeNext (value.print ++ rest) = _
    simp only [decodeNext, kept, read, if_pos shallow]
  cut := by
    intro value part composite starts proper
    obtain ⟨c, later, printed, visible⟩ := print_composite composite
    have cut : Cut part value.print := ⟨starts, proper⟩
    have kept : part.dropWhile space = part := by
      rw [printed] at cut
      rcases cut.cons with rfl | ⟨_, rfl, _⟩
      · rfl
      · simp [visible]
    have refused : parseValue (part.length + 1) part = none := by
      rcases parseValue_cut value part _ cut (Nat.lt_succ_self _) with none | ⟨n, m, rfl, _⟩
      · exact none
      · contradiction
    change decodeNext part = none
    simp only [decodeNext, kept, refused]
  blank := by
    intro text starts
    change text.all space = true
    rw [List.all_eq_true]
    intro c member
    rw [List.mem_singleton.mp (starts.subset member)]
    rfl

end EdgeGuard.Go.Json
