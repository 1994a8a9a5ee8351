import Mathlib.Data.List.DropRight
import Mathlib.Data.List.Infix

/-! Byte strings with the operations of Go's `strings` package. A Go string is
an arbitrary byte sequence, so nothing here assumes UTF-8; whitespace is
recognized through the encodings of its runes, as the rune decoder does. -/
namespace EdgeGuard.Go

abbrev Str := List UInt8

instance lawfulBEqStr : LawfulBEq Str := inferInstance

/-- The bytes of a string literal. -/
def lit (text : String) : Str := text.toUTF8.data.toList

def hasPrefix (s start : Str) : Bool := start.isPrefixOf s

def hasSuffix (s tail : Str) : Bool := tail.isSuffixOf s

def trimPrefix (s start : Str) : Str := if hasPrefix s start then s.drop start.length else s

/-- `strings.TrimRight` for a cutset of one byte. -/
def trimRight (s : Str) (cut : UInt8) : Str := s.rdropWhile (· == cut)

/-- `strings.SplitN` for a separator of one byte: at most `n` parts, the last
one unsplit. -/
def splitN (sep : UInt8) : Nat → Str → List Str
  | 0, _ => []
  | 1, s => [s]
  | n + 2, s =>
    if sep ∈ s then s.takeWhile (· != sep) :: splitN sep (n + 1) ((s.dropWhile (· != sep)).tail)
    else [s]

/-- A function that returns early on an error passed the check when it succeeds. -/
theorem check_passed {ε α : Type} {condition : Prop} [Decidable condition] {err : ε}
    {rest : Except ε α} {value : α} (done : (if condition then .error err else rest) = .ok value) :
    ¬ condition ∧ rest = .ok value := by
  by_cases failed : condition
  · simp [failed] at done
  · exact ⟨failed, by simpa [failed] using done⟩

theorem check_ok_iff {ε α : Type} {condition : Prop} [Decidable condition] {err : ε}
    {rest : Except ε α} {value : α} :
    (if condition then .error err else rest) = .ok value ↔ ¬ condition ∧ rest = .ok value := by
  constructor
  · exact check_passed
  · rintro ⟨passed, done⟩
    rwa [if_neg passed]

theorem map_passed {ε α β : Type} {f : α → β} {result : Except ε α} {value : β}
    (done : result.map f = .ok value) : ∃ given, result = .ok given ∧ f given = value := by
  cases result with
  | error err => contradiction
  | ok given => exact ⟨given, rfl, Except.ok.inj done⟩

theorem ok_of_toOption {ε α : Type} {result : Except ε α} {value : α}
    (done : result.toOption = some value) : result = .ok value := by
  cases result with
  | error err => contradiction
  | ok given => exact congrArg Except.ok (Option.some.inj done)

theorem hasPrefix_iff {s start : Str} : hasPrefix s start = true ↔ start <+: s :=
  List.isPrefixOf_iff_prefix

theorem splitN_cons {sep : UInt8} {part rest : Str} (n : Nat) (absent : sep ∉ part) :
    splitN sep (n + 2) (part ++ sep :: rest) = part :: splitN sep (n + 1) rest := by
  have inside : ∀ byte ∈ part, (byte != sep) = true := by
    intro byte member
    have different : byte ≠ sep := fun same => absent (same ▸ member)
    simpa using different
  have found : sep ∈ part ++ sep :: rest := by simp
  rw [splitN, if_pos found, List.takeWhile_append_of_pos inside,
    List.dropWhile_append_of_pos inside]
  simp

section Strip
variable {codes : List Str}

/-- Remove encodings of the given code from the front, at most `fuel` of them. -/
def strip (codes : List Str) : Nat → Str → Str
  | 0, s => s
  | fuel + 1, s =>
    match codes.find? (·.isPrefixOf s) with
    | none => s
    | some code => strip codes fuel (s.drop code.length)

/-- What survives the removal of one encoding survives stripping. -/
theorem strip_induction {P : Str → Prop}
    (preserves : ∀ code ∈ codes, ∀ tail, P (code ++ tail) → P tail)
    (fuel : Nat) {s : Str} (initial : P s) : P (strip codes fuel s) := by
  induction fuel generalizing s with
  | zero => exact initial
  | succ fuel ih =>
    unfold strip
    split
    · exact initial
    · rename_i code found
      have starts : code <+: s := by
        simpa [List.isPrefixOf_iff_prefix] using List.find?_some found
      obtain ⟨tail, rfl⟩ := starts
      rw [List.drop_left]
      exact ih (preserves code (List.mem_of_find?_eq_some found) tail initial)

theorem strip_suffix (codes : List Str) (fuel : Nat) (s : Str) : strip codes fuel s <:+ s := by
  apply strip_induction (P := fun t => t <:+ s) _ _ (List.suffix_refl s)
  intro code _ tail inside
  exact (List.suffix_append code tail).trans inside

theorem strip_fixed {s : Str} (stop : ∀ code ∈ codes, ¬ code <+: s) (fuel : Nat) :
    strip codes fuel s = s := by
  cases fuel with
  | zero => rfl
  | succ fuel =>
    have none_found : codes.find? (·.isPrefixOf s) = none := by
      simpa [List.find?_eq_none, List.isPrefixOf_iff_prefix] using stop
    simp only [strip, none_found]

/-- With one unit of fuel for each byte, stripping stops only in front of a
byte that starts no encoding. -/
theorem strip_stop (nonempty : ∀ code ∈ codes, code ≠ []) {fuel : Nat} {s : Str}
    (enough : s.length ≤ fuel) : ∀ code ∈ codes, ¬ code <+: strip codes fuel s := by
  induction fuel generalizing s with
  | zero =>
    intro code member starts
    have empty : s = [] := List.eq_nil_of_length_eq_zero (Nat.le_zero.mp enough)
    simp only [strip, empty, List.prefix_nil] at starts
    exact nonempty code member starts
  | succ fuel ih =>
    unfold strip
    split
    · rename_i missing
      simpa [List.find?_eq_none, List.isPrefixOf_iff_prefix] using missing
    · rename_i code found
      have positive := List.length_pos_of_ne_nil (nonempty code (List.mem_of_find?_eq_some found))
      exact ih (by simp only [List.length_drop]; omega)

end Strip

/-- The runes for which `unicode.IsSpace` holds. -/
def spaceRunes : List Char :=
  ['\t', '\n', '\x0b', '\x0c', '\r', ' ', '\u0085', '\u00a0', '\u1680', '\u2000',
   '\u2001', '\u2002', '\u2003', '\u2004', '\u2005', '\u2006', '\u2007', '\u2008',
   '\u2009', '\u200a', '\u2028', '\u2029', '\u202f', '\u205f', '\u3000']

def spaces : List Str := spaceRunes.map String.utf8EncodeChar

def trimLeftSpace (s : Str) : Str := strip spaces s.length s

def trimRightSpace (s : Str) : Str :=
  (strip (spaces.map List.reverse) s.length s.reverse).reverse

/-- `strings.TrimSpace`. An encoding of a white-space rune is recognized at
either end exactly when the rune decoder would return that rune there. -/
def trimSpace (s : Str) : Str := trimRightSpace (trimLeftSpace s)

private theorem spaces_nonempty : ∀ code ∈ spaces, code ≠ [] := by decide

private theorem reversed_nonempty : ∀ code ∈ spaces.map List.reverse, code ≠ [] := by decide

theorem trimLeftSpace_suffix (s : Str) : trimLeftSpace s <:+ s := strip_suffix _ _ _

theorem trimRightSpace_isPrefix (s : Str) : trimRightSpace s <+: s := by
  have tail := strip_suffix (spaces.map List.reverse) s.length s.reverse
  simpa only [trimRightSpace, List.reverse_reverse] using List.reverse_prefix.mpr tail

theorem trimSpace_sublist (s : Str) : (trimSpace s).Sublist s :=
  (trimRightSpace_isPrefix _).sublist.trans (trimLeftSpace_suffix s).sublist

private theorem trimRightSpace_idem (s : Str) : trimRightSpace (trimRightSpace s) = trimRightSpace s := by
  unfold trimRightSpace
  rw [List.reverse_reverse]
  congr 1
  apply strip_fixed
  exact strip_stop reversed_nonempty (by simp)

theorem trimSpace_idem (s : Str) : trimSpace (trimSpace s) = trimSpace s := by
  have front : trimLeftSpace (trimSpace s) = trimSpace s := by
    apply strip_fixed
    intro code member starts
    exact strip_stop spaces_nonempty (Nat.le_refl s.length) code member
      (starts.trans (trimRightSpace_isPrefix _))
  rw [trimSpace, front]
  exact trimRightSpace_idem _

theorem mem_trimSpace_iff {s : Str} {byte : UInt8} (plain : ∀ code ∈ spaces, byte ∉ code) :
    byte ∈ trimSpace s ↔ byte ∈ s := by
  constructor
  · intro member
    exact (trimSpace_sublist s).subset member
  · intro member
    have front : byte ∈ trimLeftSpace s := by
      refine strip_induction ?_ _ member
      intro code known tail inside
      exact (List.mem_append.mp inside).resolve_left (plain code known)
    have back : byte ∈ strip (spaces.map List.reverse) (trimLeftSpace s).length
        (trimLeftSpace s).reverse := by
      refine strip_induction ?_ _ (List.mem_reverse.mpr front)
      intro code known tail inside
      obtain ⟨original, present, rfl⟩ := List.mem_map.mp known
      refine (List.mem_append.mp inside).resolve_left ?_
      simpa using plain original present
    exact List.mem_reverse.mpr back

private theorem spaces_nonzero : ∀ code ∈ spaces, 0 ∉ code := by decide

theorem zero_mem_trimSpace {s : Str} : 0 ∈ trimSpace s ↔ 0 ∈ s := mem_trimSpace_iff spaces_nonzero

/-- Bytes that belong to no encoding of white space. -/
def visible (byte : UInt8) : Bool := 0x21 ≤ byte && byte ≤ 0x7e

private theorem spaces_visible : ∀ code ∈ spaces, ∀ byte ∈ code, visible byte = false := by
  have checked : spaces.all (fun code => code.all (fun byte => !visible byte)) = true := by decide
  simpa using checked

theorem visible_mem_trimSpace {s : Str} {byte : UInt8} (shown : visible byte = true) :
    byte ∈ trimSpace s ↔ byte ∈ s := by
  apply mem_trimSpace_iff
  intro code known inside
  rw [spaces_visible code known byte inside] at shown
  contradiction

theorem visible_not_starts {byte : UInt8} {code tail : Str} (shown : visible byte = true)
    (invisible : ∀ b ∈ code, visible b = false) (nonempty : code ≠ []) :
    ¬ code <+: byte :: tail := by
  intro starts
  cases code with
  | nil => exact nonempty rfl
  | cons first rest =>
    obtain ⟨rfl, _⟩ := List.cons_prefix_cons.mp starts
    have hidden := invisible first (by simp)
    rw [shown] at hidden
    contradiction

/-- Nothing is trimmed off the front of a string that begins with a visible byte. -/
theorem trimLeftSpace_of_visible {s : Str}
    (first : ∀ byte, s.head? = some byte → visible byte = true) : trimLeftSpace s = s := by
  apply strip_fixed
  intro code member
  cases s with
  | nil => simpa [List.prefix_nil] using spaces_nonempty code member
  | cons byte tail =>
    exact visible_not_starts (first byte rfl) (spaces_visible code member)
      (spaces_nonempty code member)

private theorem reversed_visible : ∀ code ∈ spaces.map List.reverse, ∀ byte ∈ code, visible byte = false := by
  intro code member byte inside
  obtain ⟨original, known, rfl⟩ := List.mem_map.mp member
  exact spaces_visible original known byte (List.mem_reverse.mp inside)

theorem trimSpace_of_visible {s : Str} (first : ∀ byte, s.head? = some byte → visible byte = true)
    (last : ∀ byte, s.getLast? = some byte → visible byte = true) : trimSpace s = s := by
  have back : trimRightSpace s = s := by
    unfold trimRightSpace
    rw [strip_fixed, List.reverse_reverse]
    intro code member
    cases reversed : s.reverse with
    | nil => simpa [List.prefix_nil] using reversed_nonempty code member
    | cons byte tail =>
      have shown : s.getLast? = some byte := by rw [← List.head?_reverse, reversed]; rfl
      exact visible_not_starts (last byte shown) (reversed_visible code member)
        (reversed_nonempty code member)
  rw [trimSpace, trimLeftSpace_of_visible first, back]

/-- A text made of encodings of the given code. -/
inductive Spelled (codes : List Str) : Str → Prop
  | nil : Spelled codes []
  | cons {code rest : Str} (known : code ∈ codes) (more : Spelled codes rest) : Spelled codes (code ++ rest)

theorem Spelled.append {codes : List Str} {a b : Str} (first : Spelled codes a) (second : Spelled codes b) :
    Spelled codes (a ++ b) := by
  induction first with
  | nil => exact second
  | cons known more ih =>
    rw [List.append_assoc]
    exact .cons known ih

theorem Spelled.reverse {codes : List Str} {a : Str} (spelled : Spelled codes a) :
    Spelled (codes.map List.reverse) a.reverse := by
  induction spelled with
  | nil => exact .nil
  | @cons code rest known more ih =>
    rw [List.reverse_append]
    apply ih.append
    have single : Spelled (codes.map List.reverse) (code.reverse ++ []) :=
      .cons (List.mem_map_of_mem known) .nil
    rwa [List.append_nil] at single

/-- Where no encoding starts another one, stripping removes exactly the encodings in
front. -/
theorem strip_spelled {codes : List Str} (free : ∀ a ∈ codes, ∀ b ∈ codes, a <+: b → a = b)
    (nonempty : ∀ code ∈ codes, code ≠ []) {front s : Str} (spelled : Spelled codes front)
    (stop : ∀ code ∈ codes, ¬ code <+: s) {fuel : Nat} (enough : front.length ≤ fuel) :
    strip codes fuel (front ++ s) = s := by
  induction spelled generalizing fuel with
  | nil => exact strip_fixed stop fuel
  | @cons code rest known more ih =>
    have positive := List.length_pos_of_ne_nil (nonempty code known)
    rw [List.length_append] at enough
    obtain ⟨fuel, rfl⟩ : ∃ less, fuel = less + 1 := ⟨fuel - 1, by omega⟩
    have starts : code <+: code ++ (rest ++ s) := List.prefix_append code (rest ++ s)
    have found : codes.find? (·.isPrefixOf (code ++ (rest ++ s))) = some code := by
      obtain ⟨other, taken⟩ := Option.isSome_iff_exists.mp
        (List.find?_isSome (p := (·.isPrefixOf (code ++ (rest ++ s)))).mpr
          ⟨code, known, List.isPrefixOf_iff_prefix.mpr starts⟩)
      have also : other <+: code ++ (rest ++ s) := by
        simpa [List.isPrefixOf_iff_prefix] using List.find?_some taken
      have member := List.mem_of_find?_eq_some taken
      rw [taken]
      rcases List.prefix_or_prefix_of_prefix also starts with shorter | longer
      · rw [free other member code known shorter]
      · rw [free code known other member longer]
    rw [List.append_assoc, strip, found]
    dsimp only
    rw [List.drop_left]
    exact ih (by omega)

/-- No encoding in the list starts another one. -/
private def uniquelyStarted (codes : List Str) : Bool :=
  codes.all (fun a => codes.all (fun b => !a.isPrefixOf b || a == b))

private theorem free_of_uniquelyStarted {codes : List Str} (checked : uniquelyStarted codes = true) :
    ∀ a ∈ codes, ∀ b ∈ codes, a <+: b → a = b := by
  intro a first b second starts
  have pair := List.all_eq_true.mp (List.all_eq_true.mp checked a first) b second
  simpa [List.isPrefixOf_iff_prefix.mpr starts] using pair

/-- White space around a text with visible ends is trimmed off, and nothing else. -/
theorem trimSpace_padded {lead trail s : Str} (leads : Spelled spaces lead) (trails : Spelled spaces trail)
    (nonempty : s ≠ []) (first : ∀ byte, s.head? = some byte → visible byte = true)
    (last : ∀ byte, s.getLast? = some byte → visible byte = true) :
    trimSpace (lead ++ s ++ trail) = s := by
  have front : trimLeftSpace (lead ++ s ++ trail) = s ++ trail := by
    rw [trimLeftSpace, List.append_assoc]
    refine strip_spelled (free_of_uniquelyStarted (by decide)) spaces_nonempty leads ?_ (by simp)
    intro code member
    cases s with
    | nil => contradiction
    | cons byte rest =>
      exact visible_not_starts (first byte rfl) (spaces_visible code member) (spaces_nonempty code member)
  have back : trimRightSpace (s ++ trail) = s := by
    rw [trimRightSpace, List.reverse_append, strip_spelled (free_of_uniquelyStarted (by decide)) reversed_nonempty
      trails.reverse, List.reverse_reverse]
    · intro code member
      cases reversed : s.reverse with
      | nil => exact absurd (List.reverse_eq_nil_iff.mp reversed) nonempty
      | cons byte rest =>
        have shown : s.getLast? = some byte := by rw [← List.head?_reverse, reversed]; rfl
        exact visible_not_starts (last byte shown) (reversed_visible code member)
          (reversed_nonempty code member)
    · simp
  rw [trimSpace, front, back]

private theorem trimmed_stop {s : Str} (trimmed : trimSpace s = s) :
    ∀ code ∈ spaces.map List.reverse, ¬ code <+: s.reverse := by
  have front : trimLeftSpace s = s := by
    refine (trimLeftSpace_suffix s).eq_of_length_le ?_
    have kept := (trimRightSpace_isPrefix (trimLeftSpace s)).length_le
    rwa [← trimSpace, trimmed] at kept
  have back : strip (spaces.map List.reverse) s.length s.reverse = s.reverse := by
    rw [trimSpace, front, trimRightSpace] at trimmed
    rw [← List.reverse_eq_iff, trimmed]
  have stop : ∀ code ∈ spaces.map List.reverse,
      ¬ code <+: strip (spaces.map List.reverse) s.length s.reverse :=
    strip_stop reversed_nonempty (by simp)
  rwa [back] at stop

theorem trimSpace_marked {mark s : Str}
    (first : ∀ byte, (mark ++ s).head? = some byte → visible byte = true) {last : UInt8}
    (ends : mark.getLast? = some last) (shown : visible last = true) (trimmed : trimSpace s = s) :
    trimSpace (mark ++ s) = mark ++ s := by
  have back : trimRightSpace (mark ++ s) = mark ++ s := by
    unfold trimRightSpace
    rw [strip_fixed, List.reverse_reverse]
    intro code member starts
    rw [List.reverse_append] at starts
    -- An encoding reaches into the mark or lies in the string.
    rcases List.prefix_or_prefix_of_prefix starts (List.prefix_append s.reverse mark.reverse) with
      inside | ⟨rest, rfl⟩
    · exact trimmed_stop trimmed code member inside
    · cases rest with
      | nil =>
        rw [List.append_nil] at member
        exact trimmed_stop trimmed _ member (List.prefix_refl _)
      | cons byte rest =>
        obtain ⟨tail, cut⟩ := List.prefix_append_right_inj _ |>.mp starts
        have same : byte = last := by
          rw [← List.head?_reverse, ← cut] at ends
          exact Option.some.inj ends
        have hidden := reversed_visible _ member byte (by simp)
        rw [same, shown] at hidden
        contradiction
  rw [trimSpace, trimLeftSpace_of_visible first, back]

/-- The loop of `fields`, with the field that is open. -/
def fieldsFrom : Nat → Str → Str → List Str
  | _, field, [] => if field = [] then [] else [field]
  | 0, field, _ => if field = [] then [] else [field]
  | fuel + 1, field, c :: rest => match spaces.find? (·.isPrefixOf (c :: rest)) with
    | some code =>
      (if field = [] then [] else [field]) ++ fieldsFrom fuel [] ((c :: rest).drop code.length)
    | none => fieldsFrom fuel (field ++ [c]) rest

/-- `strings.Fields`; every round takes at least a byte. -/
def fields (s : Str) : List Str := fieldsFrom s.length [] s

theorem fieldsFrom_visible {word : Str} (shown : ∀ byte ∈ word, visible byte = true) (fuel : Nat) (field rest : Str) :
    fieldsFrom (word.length + fuel) field (word ++ rest) = fieldsFrom fuel (field ++ word) rest := by
  induction word generalizing field with
  | nil => rw [List.length_nil, Nat.zero_add, List.nil_append, List.append_nil]
  | cons c word ih =>
    have stays : spaces.find? (·.isPrefixOf (c :: (word ++ rest))) = none := by
      rw [List.find?_eq_none]
      intro code member
      rw [List.isPrefixOf_iff_prefix]
      exact visible_not_starts (shown c (by simp)) (spaces_visible code member) (spaces_nonempty code member)
    have count : (c :: word).length + fuel = (word.length + fuel) + 1 := by
      rw [List.length_cons]
      omega
    rw [count, List.cons_append, fieldsFrom, stays]
    refine (ih (fun byte member => shown byte (by simp [member])) (field ++ [c])).trans ?_
    rw [List.append_assoc, List.singleton_append]

theorem fields_two {first second : Str} (shown : ∀ byte ∈ first, visible byte = true)
    (again : ∀ byte ∈ second, visible byte = true) (some : first ≠ []) (more : second ≠ []) :
    fields (first ++ 32 :: second) = [first, second] := by
  have count : (first ++ 32 :: second).length = first.length + (second.length + 1) := by simp
  have blank : spaces.find? (·.isPrefixOf (32 :: second)) = Option.some [32] := rfl
  have last := fieldsFrom_visible again 0 [] []
  rw [Nat.add_zero, List.append_nil, List.nil_append] at last
  rw [fields, count, fieldsFrom_visible shown, List.nil_append, fieldsFrom, blank]
  simp only [if_neg some, List.length_singleton, List.drop_one, List.tail_cons, last]
  rw [fieldsFrom, if_neg more]
  rfl

/-- The loop of a replacer that has so many bytes of the last match behind it. -/
def replaceFrom (pairs : List (Str × Str)) : Nat → Str → Str
  | _, [] => []
  | matched + 1, _ :: rest => replaceFrom pairs matched rest
  | 0, c :: rest => match pairs.find? (fun pair => pair.1 != [] && hasPrefix (c :: rest) pair.1) with
    | some (old, new) => new ++ replaceFrom pairs (old.length - 1) rest
    | none => c :: replaceFrom pairs 0 rest

/-- `strings.NewReplacer(..).Replace` for texts that are not empty: at each place the first
pair that fits is taken, and the text put in is not looked at again. -/
def replace (pairs : List (Str × Str)) (s : Str) : Str := replaceFrom pairs 0 s

theorem replace_bytes (table : List (UInt8 × Str)) (s : Str) :
    replace (table.map fun entry => ([entry.1], entry.2)) s =
      s.flatMap (fun c => ((table.find? (·.1 == c)).map (·.2)).getD [c]) := by
  unfold replace
  induction s with
  | nil => rfl
  | cons c rest ih =>
    have found : (table.map fun entry => ([entry.1], entry.2)).find?
          (fun pair => pair.1 != [] && hasPrefix (c :: rest) pair.1) =
        (table.find? (·.1 == c)).map fun entry => ([entry.1], entry.2) := by
      rw [List.find?_map]
      congr 2
      funext entry
      simp [hasPrefix, List.isPrefixOf]
    rw [replaceFrom, found, List.flatMap_cons]
    cases table.find? (·.1 == c) with
    | none => exact congrArg (c :: ·) ih
    | some entry => exact congrArg (entry.2 ++ ·) ih

end EdgeGuard.Go
