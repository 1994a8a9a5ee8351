import EdgeGuard.Go.Utf8
import EdgeGuard.Go.Time
import Mathlib.Data.List.Nodup

/-! JSON values, and what `encoding/json` documents about the texts of flat
structures. The codec is a parameter: it is known by the values that its texts
stand for. -/
namespace EdgeGuard.Go.Json

/-- A JSON value over a type of number literals. -/
inductive Value (ν : Type) where
  | null
  | bool (b : Bool)
  | number (n : ν)
  | string (s : Str)
  | array (items : List (Value ν))
  | object (members : List (Str × Value ν))

variable {ν : Type}

mutual

/-- How deep arrays and objects are nested. -/
def Value.depth : Value ν → Nat
  | .array items => itemsDepth items + 1
  | .object members => membersDepth members + 1
  | _ => 0

def itemsDepth : List (Value ν) → Nat
  | [] => 0
  | item :: rest => max item.depth (itemsDepth rest)

def membersDepth : List (Str × Value ν) → Nat
  | [] => 0
  | (_, value) :: rest => max value.depth (membersDepth rest)

end

/-- The limit of the scanner. -/
def maxNestingDepth : Nat := 10000

theorem membersDepth_append (a b : List (Str × Value ν)) :
    membersDepth (a ++ b) = max (membersDepth a) (membersDepth b) := by
  induction a with
  | nil => simp [membersDepth]
  | cons member rest ih => simp [membersDepth, ih, Nat.max_assoc]

/-- A `map[string]string`, listed by increasing keys as the encoder writes it. -/
structure StringMap where
  entries : List (Str × Str)
  sorted : entries.Pairwise (fun a b => a.1 < b.1)
  deriving DecidableEq

namespace StringMap

def empty : StringMap := ⟨[], .nil⟩

def insertEntry (key value : Str) : List (Str × Str) → List (Str × Str)
  | [] => [(key, value)]
  | (other, held) :: rest =>
    if key < other then (key, value) :: (other, held) :: rest
    else if key = other then (key, value) :: rest
    else (other, held) :: insertEntry key value rest

theorem mem_insertEntry {key value : Str} {entries : List (Str × Str)} {entry : Str × Str}
    (member : entry ∈ insertEntry key value entries) : entry = (key, value) ∨ entry ∈ entries := by
  induction entries with
  | nil => exact .inl (List.mem_singleton.mp member)
  | cons first rest ih =>
    unfold insertEntry at member
    split at member
    · exact List.mem_cons.mp member
    · split at member
      · exact (List.mem_cons.mp member).imp_right (List.mem_cons_of_mem _)
      · rcases List.mem_cons.mp member with rfl | later
        · exact .inr List.mem_cons_self
        · exact (ih later).imp_right (List.mem_cons_of_mem _)

theorem insertEntry_sorted (key value : Str) {entries : List (Str × Str)}
    (sorted : entries.Pairwise (fun a b => a.1 < b.1)) :
    (insertEntry key value entries).Pairwise (fun a b => a.1 < b.1) := by
  induction entries with
  | nil => exact List.pairwise_singleton _ _
  | cons first rest ih =>
    obtain ⟨before, tail⟩ := List.pairwise_cons.mp sorted
    unfold insertEntry
    split
    · rename_i smaller
      refine List.pairwise_cons.mpr ⟨?_, sorted⟩
      intro entry member
      rcases List.mem_cons.mp member with rfl | later
      · exact smaller
      · exact Std.lt_trans smaller (before entry later)
    · rename_i notSmaller
      split
      · rename_i same
        exact List.pairwise_cons.mpr ⟨fun entry member => same ▸ before entry member, tail⟩
      · rename_i different
        have larger : first.1 < key := by
          rcases Std.lt_trichotomy key first.1 with less | equal | greater
          · exact absurd less notSmaller
          · exact absurd equal different
          · exact greater
        refine List.pairwise_cons.mpr ⟨?_, ih tail⟩
        intro entry member
        rcases mem_insertEntry member with rfl | old
        · exact larger
        · exact before entry old

/-- Assignment of a key. -/
def insert (key value : Str) (map : StringMap) : StringMap :=
  ⟨insertEntry key value map.entries, insertEntry_sorted key value map.sorted⟩

def ofPairs (pairs : List (Str × Str)) : StringMap :=
  pairs.foldl (fun map pair => map.insert pair.1 pair.2) empty

theorem insertEntry_last {key value : Str} {entries : List (Str × Str)}
    (smaller : ∀ entry ∈ entries, entry.1 < key) :
    insertEntry key value entries = entries ++ [(key, value)] := by
  induction entries with
  | nil => rfl
  | cons first rest ih =>
    have less := smaller first List.mem_cons_self
    have notSmaller : ¬ key < first.1 := fun greater => List.lt_asymm less greater
    have different : key ≠ first.1 := fun same => List.lt_irrefl key (same ▸ less)
    rw [insertEntry, if_neg notSmaller, if_neg different,
      ih (fun entry member => smaller entry (List.mem_cons_of_mem _ member))]
    rfl

/-- Reading back the listed entries gives the map. -/
theorem ofPairs_entries (map : StringMap) : ofPairs map.entries = map := by
  obtain ⟨entries, sorted⟩ := map
  have listed : (ofPairs entries).entries = entries := by
    induction entries using List.reverseRecOn with
    | nil => rfl
    | append_singleton rest entry ih =>
      obtain ⟨front, _, before⟩ := List.pairwise_append.mp sorted
      have last := @insertEntry_last entry.1 entry.2 (ofPairs rest).entries
        (fun other member => before other (ih front ▸ member) entry (by simp))
      simp only [ofPairs, List.foldl_append, List.foldl_cons, List.foldl_nil] at last ⊢
      exact last.trans (by rw [← ofPairs, ih front])
  cases read : ofPairs entries with
  | mk other _ =>
    rw [read] at listed
    subst listed
    rfl

theorem mem_ofPairs {pairs : List (Str × Str)} {entry : Str × Str}
    (member : entry ∈ (ofPairs pairs).entries) : entry ∈ pairs := by
  induction pairs using List.reverseRecOn with
  | nil => exact member
  | append_singleton rest last ih =>
    simp only [ofPairs, List.foldl_append, List.foldl_cons, List.foldl_nil] at member
    rcases mem_insertEntry member with rfl | old
    · simp
    · exact List.mem_append_left _ (ih old)

end StringMap

/-- A field of a structure as `Marshal` meets it. -/
inductive Field where
  | int (n : Int)
  | string (s : Str)
  | time (t : Time)
  | strings (map : StringMap)
  | raw (text : Str)

/-- What is taken of `encoding/json`: number literals, the text of an instant, the
value of a text (`none` where `json.Valid` is false), the text of a structure with
its named fields, and the text of a member of an object. -/
structure Codec (ν : Type) where
  ofInt : Int → ν
  toInt : ν → Option Int
  formatTime : Time → Option Str
  parseTime : Str → Option Time
  parse : Str → Option (Value ν)
  marshal : List (Str × Field) → Option Str
  member : Str → Str → Option Str

namespace Codec
variable (json : Codec ν)

def valid (text : Str) : Bool := (json.parse text).isSome

/-- The value that the encoder writes for a field. Strings are coerced to valid
UTF-8; a nil `RawMessage` is null. -/
def fieldValue : Field → Option (Value ν)
  | .int n => some (.number (json.ofInt n))
  | .string s => some (.string (toValidUTF8 s))
  | .time t => (json.formatTime t).map .string
  | .strings map => some (.object (map.entries.map
      (fun entry => (toValidUTF8 entry.1, .string (toValidUTF8 entry.2)))))
  | .raw text => if text = [] then some .null else json.parse text

def members : List (Str × Field) → Option (List (Str × Value ν))
  | [] => some []
  | (name, field) :: rest =>
    match json.fieldValue field, members rest with
    | some value, some later => some ((name, value) :: later)
    | _, _ => none

/-- The documented behaviour that is used. `Marshal` fails exactly where a field
has no value; its text stands for the values of the fields, and is read back unless
it is nested too deeply. -/
structure Documented : Prop where
  int : ∀ n, -2 ^ 63 ≤ n → n < 2 ^ 63 → json.toInt (json.ofInt n) = some n
  time : ∀ t text, json.formatTime t = some text → json.parseTime text = some t
  empty : json.parse [] = none
  refused : ∀ fields, json.members fields = none → json.marshal fields = none
  written : ∀ fields members, json.members fields = some members →
    ∃ text, json.marshal fields = some text ∧ text ≠ [] ∧
      json.parse text =
        if (Value.object members).depth ≤ maxNestingDepth then some (.object members) else none
  member : ∀ text members name value, json.parse text = some (.object members) →
    members.reverse.lookup name = some value →
    ∃ raw, json.member text name = some raw ∧ json.parse raw = some value

/-- The members that `Unmarshal` assigns to the fields of a structure. Null leaves
all of them unset. -/
def object (text : Str) : Option (List (Str × Value ν)) :=
  match json.parse text with
  | some (.object members) => some members
  | some .null => some []
  | _ => none

end Codec

/-- A member that occurs again overwrites the first. -/
def get (members : List (Str × Value ν)) (name : Str) : Option (Value ν) :=
  members.reverse.lookup name

def stringField (members : List (Str × Value ν)) (name : Str) : Option Str :=
  match get members name with
  | none | some .null => some []
  | some (.string s) => some s
  | some _ => none

def stringPairs : List (Str × Value ν) → Option (List (Str × Str))
  | [] => some []
  | (name, value) :: rest =>
    match value, stringPairs rest with
    | .string s, some later => some ((name, s) :: later)
    | .null, some later => some ((name, []) :: later)
    | _, _ => none

def stringsField (members : List (Str × Value ν)) (name : Str) : Option StringMap :=
  match get members name with
  | none | some .null => some .empty
  | some (.object entries) => (stringPairs entries).map .ofPairs
  | some _ => none

namespace Codec
variable (json : Codec ν)

def intField (members : List (Str × Value ν)) (name : Str) : Option Int :=
  match get members name with
  | none | some .null => some 0
  | some (.number n) => json.toInt n
  | some _ => none

def timeField (members : List (Str × Value ν)) (name : Str) : Option Time :=
  match get members name with
  | none | some .null => some zeroTime
  | some (.string s) => json.parseTime s
  | some _ => none

def rawField (text : Str) (members : List (Str × Value ν)) (name : Str) : Option Str :=
  match get members name with
  | none => some []
  | some _ => json.member text name

end Codec

variable {json : Codec ν} {fields : List (Str × Field)} {written : List (Str × Value ν)} {name : Str}

theorem members_cons {field : Field} {rest : List (Str × Field)}
    (value : json.members ((name, field) :: rest) = some written) :
    ∃ first later, json.fieldValue field = some first ∧ json.members rest = some later ∧
      written = (name, first) :: later := by
  simp only [Codec.members] at value
  split at value
  · rename_i first later one others
    cases value
    exact ⟨first, later, one, others, rfl⟩
  · contradiction

theorem members_names (value : json.members fields = some written) :
    written.map Prod.fst = fields.map Prod.fst := by
  induction fields generalizing written with
  | nil =>
    cases value
    rfl
  | cons field rest ih =>
    obtain ⟨first, later, _, others, rfl⟩ := members_cons value
    simp [ih others]

theorem members_mem (value : json.members fields = some written) {field : Field}
    (member : (name, field) ∈ fields) :
    ∃ first, json.fieldValue field = some first ∧ (name, first) ∈ written := by
  induction fields generalizing written with
  | nil => contradiction
  | cons head rest ih =>
    obtain ⟨first, later, one, others, rfl⟩ := members_cons value
    rcases List.mem_cons.mp member with rfl | inside
    · exact ⟨first, one, List.mem_cons_self⟩
    · obtain ⟨found, is, present⟩ := ih others inside
      exact ⟨found, is, List.mem_cons_of_mem _ present⟩

theorem lookup_of_mem {pairs : List (Str × Value ν)} {value : Value ν}
    (distinct : (pairs.map Prod.fst).Nodup) (member : (name, value) ∈ pairs) :
    pairs.lookup name = some value := by
  induction pairs with
  | nil => contradiction
  | cons first rest ih =>
    obtain ⟨fresh, later⟩ := List.nodup_cons.mp distinct
    rcases List.mem_cons.mp member with rfl | inside
    · simp
    · obtain ⟨other, _⟩ := first
      have different : (name == other) = false := by
        rw [beq_eq_false_iff_ne]
        rintro rfl
        exact fresh (List.mem_map.mpr ⟨_, inside, rfl⟩)
      rw [List.lookup_cons, different]
      exact ih later inside

/-- A field with a name of its own is found under it. -/
theorem get_written (distinct : (fields.map Prod.fst).Nodup)
    (value : json.members fields = some written) {field : Field} (member : (name, field) ∈ fields) :
    ∃ first, json.fieldValue field = some first ∧ get written name = some first := by
  obtain ⟨first, is, present⟩ := members_mem value member
  refine ⟨first, is, lookup_of_mem ?_ (List.mem_reverse.mpr present)⟩
  rw [List.map_reverse, List.nodup_reverse, members_names value]
  exact distinct

theorem get_unwritten (value : json.members fields = some written)
    (absent : name ∉ fields.map Prod.fst) : get written name = none := by
  rw [get, List.lookup_eq_none_iff]
  intro pair member
  rw [bne_iff_ne]
  rintro rfl
  rw [← members_names value] at absent
  exact absent (List.mem_map_of_mem (List.mem_reverse.mp member))

/-- How deep the value of a field is nested. -/
def Codec.fieldDepth (json : Codec ν) : Field → Nat
  | .strings _ => 1
  | .raw text =>
    if text = [] then 0
    else match json.parse text with
      | none => 0
      | some value => value.depth
  | _ => 0

def Codec.fieldsDepth (json : Codec ν) : List (Str × Field) → Nat
  | [] => 0
  | (_, field) :: rest => max (json.fieldDepth field) (json.fieldsDepth rest)

theorem fieldValue_depth {field : Field} {value : Value ν}
    (is : json.fieldValue field = some value) : value.depth = json.fieldDepth field := by
  have flat (entries : List (Str × Str)) : membersDepth (entries.map
      (fun entry => (toValidUTF8 entry.1, @Value.string ν (toValidUTF8 entry.2)))) = 0 := by
    induction entries with
    | nil => simp [membersDepth]
    | cons entry rest ih => simp [membersDepth, Value.depth, ih]
  cases field with
  | int n =>
    cases is
    simp [Value.depth, Codec.fieldDepth]
  | string s =>
    cases is
    simp [Value.depth, Codec.fieldDepth]
  | time t =>
    obtain ⟨text, _, rfl⟩ := Option.map_eq_some_iff.mp is
    simp [Value.depth, Codec.fieldDepth]
  | strings map =>
    cases is
    simp [Value.depth, Codec.fieldDepth, flat]
  | raw text =>
    simp only [Codec.fieldValue] at is
    simp only [Codec.fieldDepth]
    split
    · rename_i empty
      rw [if_pos empty] at is
      cases is
      simp [Value.depth]
    · rename_i given
      rw [if_neg given] at is
      rw [is]

/-- A structure nests its fields once. -/
theorem membersDepth_written (value : json.members fields = some written) :
    membersDepth written = json.fieldsDepth fields := by
  induction fields generalizing written with
  | nil =>
    cases value
    simp [membersDepth, Codec.fieldsDepth]
  | cons field rest ih =>
    obtain ⟨first, later, is, others, rfl⟩ := members_cons value
    simp [membersDepth, Codec.fieldsDepth, fieldValue_depth is, ih others]

section Fields
variable (laws : json.Documented) (distinct : (fields.map Prod.fst).Nodup)
  (value : json.members fields = some written)
include distinct value

theorem stringField_written {s : Str} (member : (name, .string s) ∈ fields) :
    stringField written name = some (toValidUTF8 s) := by
  obtain ⟨_, ⟨⟩, found⟩ := get_written distinct value member
  simp [stringField, found]

theorem stringsField_written {map : StringMap} (member : (name, .strings map) ∈ fields) :
    stringsField written name = some (.ofPairs (map.entries.map
      (fun entry => (toValidUTF8 entry.1, toValidUTF8 entry.2)))) := by
  have pairs (entries : List (Str × Str)) : @stringPairs ν (entries.map
      (fun entry => (toValidUTF8 entry.1, .string (toValidUTF8 entry.2)))) =
      some (entries.map (fun entry => (toValidUTF8 entry.1, toValidUTF8 entry.2))) := by
    induction entries with
    | nil => rfl
    | cons entry rest ih => simp [stringPairs, ih]
  obtain ⟨_, ⟨⟩, found⟩ := get_written distinct value member
  simp [stringsField, found, pairs]

include laws

theorem intField_written {n : Int} (member : (name, .int n) ∈ fields) (low : -2 ^ 63 ≤ n)
    (high : n < 2 ^ 63) : json.intField written name = some n := by
  obtain ⟨_, ⟨⟩, found⟩ := get_written distinct value member
  simp [Codec.intField, found, laws.int n low high]

theorem timeField_written {t : Time} (member : (name, .time t) ∈ fields) :
    json.timeField written name = some t := by
  obtain ⟨first, is, found⟩ := get_written distinct value member
  obtain ⟨text, format, rfl⟩ := Option.map_eq_some_iff.mp is
  simp [Codec.timeField, found, laws.time t text format]

theorem rawField_written {text raw : Str} (parsed : json.parse text = some (.object written))
    (member : (name, .raw raw) ∈ fields) (nonempty : raw ≠ []) :
    ∃ read, json.rawField text written name = some read ∧ json.parse read = json.parse raw ∧
      read ≠ [] := by
  obtain ⟨first, is, found⟩ := get_written distinct value member
  obtain ⟨read, text, same⟩ := laws.member text written name first parsed found
  rw [Codec.fieldValue, if_neg nonempty] at is
  refine ⟨read, by simp [Codec.rawField, found, text], same.trans is.symm, ?_⟩
  rintro rfl
  rw [laws.empty] at same
  contradiction

end Fields

theorem stringsField_unwritten (value : json.members fields = some written)
    (absent : name ∉ fields.map Prod.fst) : stringsField written name = some .empty := by
  simp [stringsField, get_unwritten value absent]

theorem rawField_unwritten (value : json.members fields = some written)
    (absent : name ∉ fields.map Prod.fst) (text : Str) :
    json.rawField text written name = some [] := by
  simp [Codec.rawField, get_unwritten value absent]

end EdgeGuard.Go.Json
