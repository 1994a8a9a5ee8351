import EdgeGuard.Go.Json
import Mathlib.Data.List.Forall2

/-! Structures as members of JSON objects, and the streams of values they travel in. A
structure is a list of named fields; what the encoder writes for one, the decoder assigns
back to the same fields. -/
namespace EdgeGuard.Go.Json

inductive Kind where
  | string
  | int
  | bool
  | time
  deriving DecidableEq, Repr

inductive Datum where
  | string (s : Str)
  | int (n : Int)
  | bool (b : Bool)
  | time (t : Time)
  deriving DecidableEq, Repr

/-- A field with its name and its `omitempty` option. -/
structure FieldSpec where
  name : Str
  kind : Kind
  omitEmpty : Bool
  deriving DecidableEq, Repr

def Kind.zero : Kind → Datum
  | .string => .string []
  | .int => .int 0
  | .bool => .bool false
  | .time => .time zeroTime

def Datum.kind : Datum → Kind
  | .string _ => .string
  | .int _ => .int
  | .bool _ => .bool
  | .time _ => .time

/-- What `omitempty` leaves out; an instant is a structure and never empty. -/
def Datum.isEmpty : Datum → Bool
  | .string s => s.isEmpty
  | .int n => n == 0
  | .bool b => !b
  | .time _ => false

/-- What is taken of `json.Encoder` and `json.Decoder`: number literals, the texts of
instants, the comparison of names without regard to case, the text of a value, the next
value of a text with what follows it, and whether only white space follows. -/
structure Stream (ν : Type) where
  ofInt : Int → ν
  toInt : ν → Option Int
  formatTime : Time → Option Str
  parseTime : Str → Option Time
  fold : Str → Str → Bool
  encode : Value ν → Str
  next : Str → Option (Value ν × Str)
  blank : Str → Bool

variable {ν : Type}

def Value.composite : Value ν → Bool
  | .array _ | .object _ => true
  | _ => false

namespace Stream
variable (json : Stream ν)

/-- The documented behaviour that is used. An array or object is read back from its text
whatever follows, and is not read from a text that ends before its own. -/
structure Documented : Prop where
  int : ∀ n, -2 ^ 63 ≤ n → n < 2 ^ 63 → json.toInt (json.ofInt n) = some n
  time : ∀ t text, json.formatTime t = some text → json.parseTime text = some t
  next : ∀ value rest, value.composite = true → value.depth ≤ maxNestingDepth →
    json.next (json.encode value ++ rest) = some (value, rest)
  cut : ∀ value part, value.composite = true → part <+: json.encode value → part ≠ json.encode value →
    json.next part = none
  blank : ∀ text, text <+: [10] → json.blank text = true

/-- Strings are coerced to valid UTF-8. -/
def write : Datum → Option (Value ν)
  | .string s => some (.string (toValidUTF8 s))
  | .int n => some (.number (json.ofInt n))
  | .bool b => some (.bool b)
  | .time t => (json.formatTime t).map .string

def writeStruct : List FieldSpec → List Datum → Option (List (Str × Value ν))
  | field :: schema, datum :: record =>
    if field.omitEmpty && datum.isEmpty then writeStruct schema record
    else match json.write datum, writeStruct schema record with
      | some value, some later => some ((field.name, value) :: later)
      | _, _ => none
  | _, _ => some []

/-- Null leaves a field as it is. -/
def read (kind : Kind) (current : Datum) (value : Value ν) : Option Datum :=
  match kind, value with
  | _, .null => some current
  | .string, .string s => some (.string s)
  | .int, .number n => (json.toInt n).map .int
  | .bool, .bool b => some (.bool b)
  | .time, .string s => (json.parseTime s).map .time
  | _, _ => none

/-- The field that a member is assigned to: the one of its name, or else one whose name
differs in case. -/
def fieldFor (schema : List FieldSpec) (name : Str) : Option Str :=
  if name ∈ schema.map FieldSpec.name then some name
  else (schema.find? (json.fold name ·.name)).map FieldSpec.name

/-- The members of a field are assigned one after another. -/
def readField (schema : List FieldSpec) (members : List (Str × Value ν)) (field : FieldSpec) : Option Datum :=
  (members.filter (json.fieldFor schema ·.1 = some field.name)).foldlM
    (fun current member => json.read field.kind current member.2) field.kind.zero

/-- `DisallowUnknownFields` is `strict`. -/
def readStruct (strict : Bool) (schema : List FieldSpec) (members : List (Str × Value ν)) : Option (List Datum) :=
  if strict = true ∧ ∃ member ∈ members, json.fieldFor schema member.1 = none then none
  else schema.mapM (json.readField schema members)

/-- A structure from a value; null leaves every field unset. -/
def readValue (strict : Bool) (schema : List FieldSpec) : Value ν → Option (List Datum)
  | .object members => json.readStruct strict schema members
  | .null => some (schema.map (fun field => field.kind.zero))
  | _ => none

def readSlice (strict : Bool) (schema : List FieldSpec) : Value ν → Option (List (List Datum))
  | .array items => items.mapM (json.readValue strict schema)
  | .null => some []
  | _ => none

end Stream

/-- A value that fits a field and survives the encoding. -/
def Datum.Fits (datum : Datum) (field : FieldSpec) : Prop :=
  match field.kind, datum with
  | .string, .string s => toValidUTF8 s = s
  | .int, .int n => -2 ^ 63 ≤ n ∧ n < 2 ^ 63
  | .bool, .bool _ => True
  | .time, .time _ => True
  | _, _ => False

theorem mapM_of_zip {α β : Type} {f : α → Option β} {xs : List α} {ys : List β} (size : xs.length = ys.length)
    (each : ∀ x y, (x, y) ∈ xs.zip ys → f x = some y) : xs.mapM f = some ys := by
  induction xs generalizing ys with
  | nil =>
    cases List.length_eq_zero_iff.mp size.symm
    rfl
  | cons x xs ih =>
    cases ys with
    | nil => cases size
    | cons y ys =>
      have tail := ih (Nat.succ.inj size) (fun a b pair => each a b (List.mem_cons_of_mem _ pair))
      simp [each x y List.mem_cons_self, tail]

section RoundTrip
variable {json : Stream ν} (laws : json.Documented)

include laws in
theorem read_write {field : FieldSpec} {datum current : Datum} {value : Value ν} (fits : datum.Fits field)
    (written : json.write datum = some value) : json.read field.kind current value = some datum := by
  obtain ⟨name, kind, omitEmpty⟩ := field
  cases datum with
  | string s =>
    cases kind <;> try contradiction
    cases written
    exact congrArg (some ∘ Datum.string) fits
  | int n =>
    cases kind <;> try contradiction
    cases written
    simp [Stream.read, laws.int n fits.1 fits.2]
  | bool b =>
    cases kind <;> try contradiction
    cases written
    rfl
  | time t =>
    cases kind <;> try contradiction
    obtain ⟨text, format, rfl⟩ := Option.map_eq_some_iff.mp written
    simp [Stream.read, laws.time t text format]

theorem zero_of_isEmpty {field : FieldSpec} {datum : Datum} (fits : datum.Fits field) (empty : datum.isEmpty = true) :
    datum = field.kind.zero := by
  obtain ⟨name, kind, omitEmpty⟩ := field
  cases datum <;> cases kind <;> simp_all [Datum.Fits, Datum.isEmpty, Kind.zero]

/-- A datum as the encoder writes it. -/
def Datum.coerced : Datum → Datum
  | .string s => .string (toValidUTF8 s)
  | datum => datum

theorem fits_coerced {schema : List FieldSpec} {record : List Datum}
    (kinds : record.map Datum.kind = schema.map FieldSpec.kind)
    (range : ∀ n, Datum.int n ∈ record → -2 ^ 63 ≤ n ∧ n < 2 ^ 63) :
    List.Forall₂ (fun field datum => Datum.Fits datum field) schema (record.map Datum.coerced) := by
  induction record generalizing schema with
  | nil =>
    cases List.map_eq_nil_iff.mp kinds.symm
    exact .nil
  | cons datum record ih =>
    cases schema with
    | nil => cases kinds
    | cons field schema =>
      obtain ⟨first, rest⟩ := List.cons.inj kinds
      refine .cons ?_ (ih rest (fun n inside => range n (List.mem_cons_of_mem _ inside)))
      obtain ⟨name, kind, omitEmpty⟩ := field
      cases (first : datum.kind = kind)
      cases datum with
      | string s => exact toValidUTF8_eq_iff.mpr (toValidUTF8_valid s)
      | int n => exact range n List.mem_cons_self
      | bool b => trivial
      | time t => trivial

theorem isEmpty_coerced (datum : Datum) : datum.coerced.isEmpty = datum.isEmpty := by
  cases datum with
  | string s =>
    cases s with
    | nil => rfl
    | cons byte rest =>
      change (toValidUTF8 (byte :: rest)).isEmpty = false
      rw [List.isEmpty_eq_false_iff]
      exact toValidUTF8_ne_nil (List.cons_ne_nil byte rest)
  | _ => rfl

theorem write_coerced (json : Stream ν) (datum : Datum) : json.write datum.coerced = json.write datum := by
  cases datum with
  | string s =>
    change some (Value.string (toValidUTF8 (toValidUTF8 s))) = some (Value.string (toValidUTF8 s))
    rw [toValidUTF8_eq_iff.mpr (toValidUTF8_valid s)]
  | _ => rfl

theorem writeStruct_coerced (json : Stream ν) (schema : List FieldSpec) (record : List Datum) :
    json.writeStruct schema (record.map Datum.coerced) = json.writeStruct schema record := by
  induction schema generalizing record with
  | nil => cases record <;> rfl
  | cons field schema ih =>
    cases record with
    | nil => rfl
    | cons datum record =>
      simp only [List.map_cons, Stream.writeStruct, isEmpty_coerced, write_coerced, ih]

theorem writeStruct_cons {field : FieldSpec} {datum : Datum} {schema : List FieldSpec} {record : List Datum}
    {members : List (Str × Value ν)} (written : json.writeStruct (field :: schema) (datum :: record) = some members) :
    (datum.isEmpty = true ∧ json.writeStruct schema record = some members) ∨
      ∃ value later, json.write datum = some value ∧ json.writeStruct schema record = some later ∧
        members = (field.name, value) :: later := by
  simp only [Stream.writeStruct] at written
  split at written
  · rename_i omitted
    exact .inl ⟨((Bool.and_eq_true _ _).mp omitted).2, written⟩
  · split at written
    · rename_i value later first rest
      cases written
      exact .inr ⟨value, later, first, rest, rfl⟩
    · cases written

theorem writeStruct_exists_iff {schema : List FieldSpec} {record : List Datum}
    (kinds : record.map Datum.kind = schema.map FieldSpec.kind) :
    (∃ members, json.writeStruct schema record = some members) ↔
      ∀ t, Datum.time t ∈ record → ∃ text, json.formatTime t = some text := by
  induction schema generalizing record with
  | nil =>
    cases List.map_eq_nil_iff.mp kinds
    exact ⟨fun _ => nofun, fun _ => ⟨[], rfl⟩⟩
  | cons field schema ih =>
    cases record with
    | nil => cases kinds
    | cons datum record =>
      have later := ih (List.cons.inj kinds).2
      constructor
      · rintro ⟨members, written⟩ t member
        rcases writeStruct_cons written with ⟨empty, rest⟩ | ⟨value, members, first, rest, _⟩
        · rcases List.mem_cons.mp member with rfl | inside
          · cases empty
          · exact later.mp ⟨_, rest⟩ t inside
        · rcases List.mem_cons.mp member with rfl | inside
          · obtain ⟨text, format, _⟩ := Option.map_eq_some_iff.mp first
            exact ⟨text, format⟩
          · exact later.mp ⟨_, rest⟩ t inside
      · intro formats
        obtain ⟨members, rest⟩ := later.mpr (fun t inside => formats t (List.mem_cons_of_mem _ inside))
        have first : ∃ value, json.write datum = some value := by
          cases datum with
          | time t =>
            obtain ⟨text, format⟩ := formats t List.mem_cons_self
            exact ⟨.string text, by rw [Stream.write, format]; rfl⟩
          | _ => exact ⟨_, rfl⟩
        obtain ⟨value, first⟩ := first
        simp only [Stream.writeStruct, first, rest]
        split
        · exact ⟨members, rfl⟩
        · exact ⟨_, rfl⟩

theorem writeStruct_names {schema : List FieldSpec} {record : List Datum} {members : List (Str × Value ν)}
    (written : json.writeStruct schema record = some members) :
    ∀ member ∈ members, member.1 ∈ schema.map FieldSpec.name := by
  induction schema generalizing record members with
  | nil =>
    cases written
    exact nofun
  | cons field schema ih =>
    cases record with
    | nil =>
      cases written
      exact nofun
    | cons datum record =>
      intro member present
      rcases writeStruct_cons written with ⟨_, rest⟩ | ⟨value, later, _, rest, rfl⟩
      · exact List.mem_cons_of_mem _ (ih rest member present)
      · rcases List.mem_cons.mp present with rfl | inside
        · exact List.mem_cons_self
        · exact List.mem_cons_of_mem _ (ih rest member inside)

theorem write_depth {datum : Datum} {value : Value ν} (written : json.write datum = some value) : value.depth = 0 := by
  cases datum with
  | time t =>
    obtain ⟨text, _, rfl⟩ := Option.map_eq_some_iff.mp written
    simp [Value.depth]
  | _ =>
    cases written
    simp [Value.depth]

theorem writeStruct_depth {schema : List FieldSpec} {record : List Datum} {members : List (Str × Value ν)}
    (written : json.writeStruct schema record = some members) : membersDepth members = 0 := by
  induction schema generalizing record members with
  | nil =>
    cases written
    rfl
  | cons field schema ih =>
    cases record with
    | nil =>
      cases written
      rfl
    | cons datum record =>
      rcases writeStruct_cons written with ⟨_, rest⟩ | ⟨value, later, first, rest, rfl⟩
      · exact ih rest
      · rw [membersDepth, write_depth first, ih rest]
        rfl

theorem slice_depth {schema : List FieldSpec} {records : List (List Datum)} {rows : List (List (Str × Value ν))}
    (written : records.mapM (json.writeStruct schema) = some rows) :
    (Value.array (rows.map Value.object)).depth ≤ 2 := by
  have items : itemsDepth (rows.map Value.object) ≤ 1 := by
    induction records generalizing rows with
    | nil =>
      cases written
      exact Nat.zero_le _
    | cons record rest ih =>
      simp only [List.mapM_cons, Option.pure_def, Option.bind_eq_bind, Option.bind_eq_some_iff,
        Option.some.injEq] at written
      obtain ⟨members, first, later, tail, rfl⟩ := written
      simp only [List.map_cons, itemsDepth, Value.depth, writeStruct_depth first]
      exact Nat.max_le.mpr ⟨Nat.le_refl _, ih tail⟩
  rw [Value.depth]
  omega

include laws

/-- The start of a text that ends with a line break: the value is not in it, or is read with
nothing but white space behind it. -/
theorem next_part {value : Value ν} (composite : value.composite = true) (shallow : value.depth ≤ maxNestingDepth)
    {part : Str} (starts : part <+: json.encode value ++ [10]) :
    (part.length < (json.encode value).length ∧ json.next part = none) ∨
      ¬ part.length < (json.encode value).length ∧
        ∃ rest, json.next part = some (value, rest) ∧ json.blank rest = true := by
  by_cases short : part.length < (json.encode value).length
  · have before : part <+: json.encode value :=
      List.prefix_of_prefix_length_le starts (List.prefix_append _ _) (Nat.le_of_lt short)
    have different : part ≠ json.encode value := by
      rintro rfl
      exact Nat.lt_irrefl _ short
    exact .inl ⟨short, laws.cut value part composite before different⟩
  · obtain ⟨rest, rfl⟩ : json.encode value <+: part :=
      List.prefix_of_prefix_length_le (List.prefix_append _ _) starts (Nat.not_lt.mp short)
    exact .inr ⟨short, rest, laws.next value rest composite shallow,
      laws.blank rest ((List.prefix_append_right_inj _).mp starts)⟩

theorem readNamed_written {schema : List FieldSpec} {record : List Datum} {members : List (Str × Value ν)}
    (distinct : (schema.map FieldSpec.name).Nodup)
    (fits : List.Forall₂ (fun field datum => datum.Fits field) schema record)
    (written : json.writeStruct schema record = some members) : ∀ field datum, (field, datum) ∈ schema.zip record →
      (members.filter (·.1 = field.name)).foldlM
        (fun current member => json.read field.kind current member.2) field.kind.zero = some datum := by
  induction fits generalizing members with
  | nil => exact nofun
  | @cons head item schema record first rest ih =>
    obtain ⟨fresh, later⟩ := List.nodup_cons.mp distinct
    have others {members : List (Str × Value ν)} (names : ∀ member ∈ members, member.1 ∈ schema.map FieldSpec.name) :
        members.filter (·.1 = head.name) = [] := by
      refine List.filter_eq_nil_iff.mpr ?_
      intro member present
      rw [decide_eq_true_eq]
      intro same
      exact fresh (same ▸ names member present)
    intro field datum pair
    rcases writeStruct_cons written with ⟨empty, tail⟩ | ⟨value, members, is, tail, rfl⟩
    · rcases List.mem_cons.mp pair with same | inside
      · cases same
        rw [others (writeStruct_names tail), zero_of_isEmpty first empty]
        rfl
      · exact ih later tail field datum inside
    · rcases List.mem_cons.mp pair with same | inside
      · cases same
        rw [List.filter_cons_of_pos (by simp), others (writeStruct_names tail)]
        simp [read_write laws first is]
      · have different : head.name ≠ field.name := by
          intro same
          exact fresh (same ▸ List.mem_map_of_mem (List.of_mem_zip inside).1)
        rw [List.filter_cons_of_neg (by simp [different])]
        exact ih later tail field datum inside

theorem readStruct_written {schema : List FieldSpec} {record : List Datum} {members : List (Str × Value ν)}
    (strict : Bool) (distinct : (schema.map FieldSpec.name).Nodup)
    (fits : List.Forall₂ (fun field datum => datum.Fits field) schema record)
    (written : json.writeStruct schema record = some members) :
    json.readStruct strict schema members = some record := by
  have names := writeStruct_names written
  have known : ∀ member ∈ members, json.fieldFor schema member.1 = some member.1 := fun member present =>
    if_pos (names member present)
  have each : ∀ field datum, (field, datum) ∈ schema.zip record →
      json.readField schema members field = some datum := by
    intro field datum pair
    have same : members.filter (json.fieldFor schema ·.1 = some field.name) = members.filter (·.1 = field.name) := by
      refine List.filter_congr ?_
      intro member present
      simp only [known member present, Option.some.injEq]
    rw [Stream.readField, same]
    exact readNamed_written laws distinct fits written field datum pair
  rw [Stream.readStruct, if_neg]
  · exact mapM_of_zip fits.length_eq each
  · rintro ⟨_, member, present, unknown⟩
    cases (known member present).symm.trans unknown

theorem readSlice_written {schema : List FieldSpec} {records : List (List Datum)}
    {rows : List (List (Str × Value ν))} (strict : Bool) (distinct : (schema.map FieldSpec.name).Nodup)
    (fits : ∀ record ∈ records, List.Forall₂ (fun field datum => datum.Fits field) schema record)
    (written : records.mapM (json.writeStruct schema) = some rows) :
    json.readSlice strict schema (.array (rows.map .object)) = some records := by
  have read : ∀ {records : List (List Datum)} {rows : List (List (Str × Value ν))},
      (∀ record ∈ records, List.Forall₂ (fun field datum => datum.Fits field) schema record) →
      records.mapM (json.writeStruct schema) = some rows →
      (rows.map Value.object).mapM (json.readValue strict schema) = some records := by
    intro records
    induction records with
    | nil =>
      intro rows _ written
      cases written
      rfl
    | cons record rest ih =>
      intro rows fits written
      simp only [List.mapM_cons, Option.pure_def, Option.bind_eq_bind, Option.bind_eq_some_iff,
        Option.some.injEq] at written
      obtain ⟨members, first, later, tail, rfl⟩ := written
      have here := readStruct_written laws strict distinct (fits record List.mem_cons_self) first
      have there := ih (fun other member => fits other (List.mem_cons_of_mem _ member)) tail
      simp [Stream.readValue, here, there]
  exact read fits written

end RoundTrip

end EdgeGuard.Go.Json
