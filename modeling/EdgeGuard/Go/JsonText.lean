import EdgeGuard.Go.Json
import EdgeGuard.Go.Format

/-! Compact JSON texts with integers for numbers: a printer, a parser that reads
back what is printed, and the codec they make. -/
namespace EdgeGuard.Go.Json

def escapeByte (c : UInt8) : Str :=
  if c = 34 ∨ c = 92 then [92, c]
  else if c < 32 then [92, 117, 48, 48, hexDigit (c.toNat / 16), hexDigit (c.toNat % 16)]
  else [c]

/-- The text of a string after its opening quote. -/
def quoteRest : Str → Str
  | [] => [34]
  | c :: rest => escapeByte c ++ quoteRest rest

/-- A string after its opening quote, and what follows its closing one. -/
def unquote : Str → Option (Str × Str)
  | [] => none
  | 34 :: rest => some ([], rest)
  | 92 :: 117 :: 48 :: 48 :: high :: low :: rest => do
    let a ← fromHexChar high
    let b ← fromHexChar low
    let (s, after) ← unquote rest
    some (UInt8.ofNat (a * 16 + b) :: s, after)
  | 92 :: c :: rest => do
    let (s, after) ← unquote rest
    some (c :: s, after)
  | c :: rest => do
    let (s, after) ← unquote rest
    some (c :: s, after)

theorem unquote_quoteRest (s rest : Str) : unquote (quoteRest s ++ rest) = some (s, rest) := by
  induction s with
  | nil => rfl
  | cons c tail ih =>
    rw [quoteRest, List.append_assoc]
    unfold escapeByte
    split
    · rename_i special
      rcases special with rfl | rfl
      · simp [unquote, ih]
      · simp [unquote, ih]
    · rename_i plain
      obtain ⟨noQuote, noBackslash⟩ := not_or.mp plain
      split
      · have bound := c.toNat_lt
        have high := fromHexChar_hexDigit (c.toNat / 16) (by omega)
        have low := fromHexChar_hexDigit (c.toNat % 16) (by omega)
        have join : UInt8.ofNat (c.toNat / 16 * 16 + c.toNat % 16) = c := by
          rw [Nat.div_add_mod', UInt8.ofNat_toNat]
        simp only [List.cons_append, List.nil_append, unquote, high, low, ih, Option.bind_eq_bind,
          Option.bind_some, join]
      · simp [unquote, ih, noBackslash]

mutual

def Value.print : Value Int → Str
  | .null => [110, 117, 108, 108]
  | .bool true => [116, 114, 117, 101]
  | .bool false => [102, 97, 108, 115, 101]
  | .number n => formatInt n
  | .string s => 34 :: quoteRest s
  | .array [] => [91, 93]
  | .array (item :: rest) => 91 :: (item.print ++ printItems rest)
  | .object [] => [123, 125]
  | .object ((name, value) :: rest) =>
    123 :: 34 :: (quoteRest name ++ 58 :: (value.print ++ printMembers rest))

/-- The items after the first, and the closing bracket. -/
def printItems : List (Value Int) → Str
  | [] => [93]
  | item :: rest => 44 :: (item.print ++ printItems rest)

def printMembers : List (Str × Value Int) → Str
  | [] => [125]
  | (name, value) :: rest => 44 :: 34 :: (quoteRest name ++ 58 :: (value.print ++ printMembers rest))

end

/-- The name of a member with its colon. -/
def parseName (text : Str) : Option (Str × Str) :=
  match text with
  | 34 :: rest =>
    match unquote rest with
    | some (name, 58 :: after) => some (name, after)
    | _ => none
  | _ => none

mutual

/-- A value at the start of a text, and what follows it. -/
def parseValue : Nat → Str → Option (Value Int × Str)
  | 0, _ => none
  | fuel + 1, text =>
    match text with
    | 34 :: rest => (unquote rest).map (fun read => (.string read.1, read.2))
    | 91 :: rest =>
      if rest.head? = some 93 then some (.array [], rest.tail)
      else do
        let first ← parseValue fuel rest
        let others ← parseItems fuel first.2
        some (.array (first.1 :: others.1), others.2)
    | 123 :: rest =>
      if rest.head? = some 125 then some (.object [], rest.tail)
      else do
        let name ← parseName rest
        let first ← parseValue fuel name.2
        let others ← parseMembers fuel first.2
        some (.object ((name.1, first.1) :: others.1), others.2)
    | 110 :: 117 :: 108 :: 108 :: rest => some (.null, rest)
    | 116 :: 114 :: 117 :: 101 :: rest => some (.bool true, rest)
    | 102 :: 97 :: 108 :: 115 :: 101 :: rest => some (.bool false, rest)
    | text =>
      if text.takeWhile numeric = [] then none
      else some (.number (parseInt (text.takeWhile numeric)), text.dropWhile numeric)

def parseItems : Nat → Str → Option (List (Value Int) × Str)
  | fuel + 1, 44 :: rest => do
    let first ← parseValue fuel rest
    let others ← parseItems fuel first.2
    some (first.1 :: others.1, others.2)
  | _ + 1, 93 :: rest => some ([], rest)
  | _, _ => none

def parseMembers : Nat → Str → Option (List (Str × Value Int) × Str)
  | fuel + 1, 44 :: rest => do
    let name ← parseName rest
    let first ← parseValue fuel name.2
    let others ← parseMembers fuel first.2
    some ((name.1, first.1) :: others.1, others.2)
  | _ + 1, 125 :: rest => some ([], rest)
  | _, _ => none

end

theorem parseName_print (name rest : Str) :
    parseName (34 :: (quoteRest name ++ 58 :: rest)) = some (name, rest) := by
  simp [parseName, unquote_quoteRest]

/-- The text does not go on with a digit. -/
def Stops (rest : Str) : Prop := ∀ c, rest.head? = some c → numeric c = false

theorem numeric_split {text rest : Str} (digits : ∀ c ∈ text, numeric c = true) (stops : Stops rest) :
    (text ++ rest).takeWhile numeric = text ∧ (text ++ rest).dropWhile numeric = rest := by
  induction text with
  | nil =>
    cases rest with
    | nil => exact ⟨rfl, rfl⟩
    | cons c rest =>
      have stop := stops c rfl
      simp [stop]
  | cons c text ih =>
    have first := digits c List.mem_cons_self
    obtain ⟨taken, dropped⟩ := ih (fun d member => digits d (List.mem_cons_of_mem _ member))
    simp [first, taken, dropped]

theorem parseValue_number (fuel : Nat) (n : Int) {rest : Str} (stops : Stops rest) :
    parseValue (fuel + 1) (formatInt n ++ rest) = some (.number n, rest) := by
  obtain ⟨taken, dropped⟩ := numeric_split (formatInt_numeric n) stops
  have nonempty := formatInt_ne_nil n
  have value := parseInt_formatInt n
  have digits := formatInt_numeric n
  cases shape : formatInt n with
  | nil => contradiction
  | cons c text =>
    have first : numeric c = true := digits c (by simp [shape])
    have other {k : UInt8} {rest after : Str} (same : c :: rest = k :: after)
        (letter : numeric k = false) : False := by
      rw [(List.cons.inj same).1, letter] at first
      contradiction
    rw [shape] at taken dropped value
    rw [List.cons_append] at taken dropped ⊢
    unfold parseValue
    split
    · rename_i same
      exact (other same rfl).elim
    · rename_i same
      exact (other same rfl).elim
    · rename_i same
      exact (other same rfl).elim
    · rename_i same
      exact (other same rfl).elim
    · rename_i same
      exact (other same rfl).elim
    · rename_i same
      exact (other same rfl).elim
    · rw [taken, dropped, value]
      simp

/-- No value starts with a closing bracket. -/
theorem print_head (v : Value Int) (rest : Str) : (v.print ++ rest).head? ≠ some 93 := by
  cases v with
  | null => simp [Value.print]
  | bool b =>
    cases b with
    | true => simp [Value.print]
    | false => simp [Value.print]
  | number n =>
    have digits := formatInt_numeric n
    have nonempty := formatInt_ne_nil n
    cases shape : formatInt n with
    | nil => contradiction
    | cons c text =>
      have first : numeric c = true := digits c (by simp [shape])
      simp only [Value.print, shape, List.cons_append, List.head?_cons, ne_eq, Option.some.injEq]
      rintro rfl
      contradiction
  | string s => simp [Value.print]
  | array items =>
    cases items with
    | nil => simp [Value.print]
    | cons item rest => simp [Value.print]
  | object members =>
    cases members with
    | nil => simp [Value.print]
    | cons member rest => simp [Value.print]

theorem stops_cons {c : UInt8} (letter : numeric c = false) (rest : Str) : Stops (c :: rest) := by
  rintro _ ⟨⟩
  exact letter

theorem stops_items (items : List (Value Int)) (rest : Str) : Stops (printItems items ++ rest) := by
  cases items with
  | nil => exact stops_cons rfl _
  | cons item others => exact stops_cons rfl _

theorem stops_members (members : List (Str × Value Int)) (rest : Str) :
    Stops (printMembers members ++ rest) := by
  cases members with
  | nil => exact stops_cons rfl _
  | cons member others => exact stops_cons rfl _

mutual

theorem parseValue_print (v : Value Int) (fuel : Nat) (rest : Str) (enough : v.print.length < fuel)
    (stops : Stops rest) : parseValue fuel (v.print ++ rest) = some (v, rest) := by
  obtain ⟨fuel, rfl⟩ := Nat.exists_eq_add_one_of_ne_zero (Nat.ne_zero_of_lt enough)
  cases v with
  | null => simp [Value.print, parseValue]
  | bool b =>
    cases b with
    | true => simp [Value.print, parseValue]
    | false => simp [Value.print, parseValue]
  | number n => exact parseValue_number fuel n stops
  | string s => simp [Value.print, parseValue, unquote_quoteRest]
  | array items =>
    cases items with
    | nil => simp [Value.print, parseValue]
    | cons item others =>
      simp only [Value.print, List.length_cons, List.length_append] at enough
      have first := parseValue_print item fuel (printItems others ++ rest) (by omega)
        (stops_items others rest)
      have second := parseItems_print others fuel rest (by omega)
      have opens := print_head item (printItems others ++ rest)
      simp only [Value.print, List.cons_append, List.append_assoc, parseValue, if_neg opens, first,
        second, Option.bind_eq_bind, Option.bind_some]
  | object members =>
    cases members with
    | nil => simp [Value.print, parseValue]
    | cons member others =>
      obtain ⟨name, value⟩ := member
      simp only [Value.print, List.length_cons, List.length_append] at enough
      have first := parseValue_print value fuel (printMembers others ++ rest) (by omega)
        (stops_members others rest)
      have second := parseMembers_print others fuel rest (by omega)
      have opens : ((34 : UInt8) :: (quoteRest name ++ 58 :: (value.print ++
          (printMembers others ++ rest)))).head? ≠ some 125 := by simp
      simp only [Value.print, List.cons_append, List.append_assoc, parseValue, if_neg opens,
        parseName_print, first, second, Option.bind_eq_bind, Option.bind_some]

theorem parseItems_print (items : List (Value Int)) (fuel : Nat) (rest : Str)
    (enough : (printItems items).length < fuel) :
    parseItems fuel (printItems items ++ rest) = some (items, rest) := by
  obtain ⟨fuel, rfl⟩ := Nat.exists_eq_add_one_of_ne_zero (Nat.ne_zero_of_lt enough)
  cases items with
  | nil => simp [printItems, parseItems]
  | cons item others =>
    simp only [printItems, List.length_cons, List.length_append] at enough
    have first := parseValue_print item fuel (printItems others ++ rest) (by omega)
      (stops_items others rest)
    have second := parseItems_print others fuel rest (by omega)
    simp only [printItems, List.cons_append, List.append_assoc, parseItems, first, second,
      Option.bind_eq_bind, Option.bind_some]

theorem parseMembers_print (members : List (Str × Value Int)) (fuel : Nat) (rest : Str)
    (enough : (printMembers members).length < fuel) :
    parseMembers fuel (printMembers members ++ rest) = some (members, rest) := by
  obtain ⟨fuel, rfl⟩ := Nat.exists_eq_add_one_of_ne_zero (Nat.ne_zero_of_lt enough)
  cases members with
  | nil => simp [printMembers, parseMembers]
  | cons member others =>
    obtain ⟨name, value⟩ := member
    simp only [printMembers, List.length_cons, List.length_append] at enough
    have first := parseValue_print value fuel (printMembers others ++ rest) (by omega)
      (stops_members others rest)
    have second := parseMembers_print others fuel rest (by omega)
    simp only [printMembers, List.cons_append, List.append_assoc, parseMembers, parseName_print,
      first, second, Option.bind_eq_bind, Option.bind_some]

end

/-- The whole text as one value that is not nested too deeply. -/
def parse (text : Str) : Option (Value Int) :=
  match parseValue (text.length + 1) text with
  | some (value, []) => if value.depth ≤ maxNestingDepth then some value else none
  | _ => none

theorem parse_print (v : Value Int) :
    parse v.print = if v.depth ≤ maxNestingDepth then some v else none := by
  have read := parseValue_print v (v.print.length + 1) [] (Nat.lt_succ_self _)
    (by simp [Stops])
  rw [List.append_nil] at read
  simp [parse, read]

/-- The texts of instants. One of them is written as a date, the others by their
nanoseconds. -/
def sampleInstant : Time := 1700000000 * second

def sampleInstantText : Str := lit "2023-11-14T22:13:20Z"

/-- `Time.MarshalJSON` refuses a year outside `[0, 9999]`. -/
def formatTime (t : Time) : Option Str :=
  if t < -62167219200 * second ∨ 253402300800 * second ≤ t then none
  else if t = sampleInstant then some sampleInstantText
  else some (formatInt t)

def parseTime (text : Str) : Option Time :=
  if text = sampleInstantText then some sampleInstant
  else if text.all numeric then some (parseInt text)
  else none

theorem parseTime_formatTime {t : Time} {text : Str} (written : formatTime t = some text) :
    parseTime text = some t := by
  unfold formatTime at written
  split at written
  · contradiction
  · split at written
    · rename_i same
      cases written
      rw [parseTime, if_pos rfl, same]
    · cases written
      have digits : (formatInt t).all numeric = true := List.all_eq_true.mpr (formatInt_numeric t)
      have different : formatInt t ≠ sampleInstantText := by
        intro same
        rw [same] at digits
        exact absurd digits (by decide)
      rw [parseTime, if_neg different, if_pos digits, parseInt_formatInt]

private def reader : Codec Int where
  ofInt := id
  toInt := some
  formatTime := formatTime
  parseTime := parseTime
  parse := parse
  marshal := fun _ => none
  member := fun text name =>
    match parse text with
    | some (.object members) => (members.reverse.lookup name).map Value.print
    | _ => none

/-- The codec of compact texts. -/
def compact : Codec Int :=
  { reader with marshal := fun fields => (reader.members fields).map (fun members => (Value.object members).print) }

theorem compact_members (fields : List (Str × Field)) :
    reader.members fields = compact.members fields := by
  have same (field : Field) : reader.fieldValue field = compact.fieldValue field := by
    cases field with
    | _ => rfl
  induction fields with
  | nil => rfl
  | cons field rest ih => simp [Codec.members, same, ih]

theorem depth_of_lookup {members : List (Str × Value Int)} {name : Str} {value : Value Int}
    (found : members.lookup name = some value) : value.depth ≤ membersDepth members := by
  induction members with
  | nil => contradiction
  | cons first rest ih =>
    obtain ⟨other, _⟩ := first
    rw [List.lookup_cons] at found
    simp only [membersDepth]
    split at found
    · cases found
      exact Nat.le_max_left _ _
    · exact (ih found).trans (Nat.le_max_right _ _)

theorem membersDepth_reverse (members : List (Str × Value Int)) :
    membersDepth members.reverse = membersDepth members := by
  induction members with
  | nil => rfl
  | cons first rest ih =>
    rw [List.reverse_cons, membersDepth_append, ih]
    simp [membersDepth, Nat.max_comm]

theorem parse_depth {text : Str} {value : Value Int} (read : parse text = some value) :
    value.depth ≤ maxNestingDepth := by
  unfold parse at read
  split at read
  · split at read
    · rename_i shallow
      cases read
      exact shallow
    · contradiction
  · contradiction

theorem compact_documented : compact.Documented where
  int := fun _ _ _ => rfl
  time := fun _ _ written => parseTime_formatTime written
  empty := by decide
  refused := by
    intro fields failed
    change (reader.members fields).map _ = none
    rw [compact_members, failed]
    rfl
  written := by
    intro fields members value
    refine ⟨(Value.object members).print, ?_, ?_, parse_print _⟩
    · change (reader.members fields).map _ = _
      rw [compact_members, value]
      rfl
    · cases members with
      | nil => simp [Value.print]
      | cons first rest => simp [Value.print]
  member := by
    intro text members name value read found
    have shallow : value.depth ≤ maxNestingDepth := by
      have whole := parse_depth read
      have inside := depth_of_lookup found
      rw [membersDepth_reverse] at inside
      simp only [Value.depth] at whole
      omega
    refine ⟨value.print, ?_, ?_⟩
    · change (match parse text with | some (.object members) => _ | _ => none) = _
      rw [show parse text = some (.object members) from read]
      simp [found]
    · exact (parse_print value).trans (if_pos shallow)

end EdgeGuard.Go.Json
