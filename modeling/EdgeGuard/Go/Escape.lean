import EdgeGuard.Go.Encoding

/-! Percent-encoding of URL paths as Go's `net/url` does it. A path may be
spelled in several ways; `Spells` relates a text to the path it stands for, and
the texts of one path have their escapes at the same places, so a spelling can
be split where the path is. `URLPath` is the part of `url.URL` that remembers
the spelling. -/
namespace EdgeGuard.Go

/-- `shouldEscape` for a path. -/
def shouldEscape (c : UInt8) : Bool :=
  if 97 ≤ c && c ≤ 122 || 65 ≤ c && c ≤ 90 || 48 ≤ c && c ≤ 57 then false
  else !(lit "-_.~$&+,/:;=@").contains c

def upperHex : Str := lit "0123456789ABCDEF"

def upperHexDigit (value : Nat) : UInt8 := upperHex.getD value 0

def escapeByte (c : UInt8) : Str :=
  if shouldEscape c then [37, upperHexDigit (c.toNat / 16), upperHexDigit (c.toNat % 16)] else [c]

/-- `escape` for a path. -/
def escape (path : Str) : Str := path.flatMap escapeByte

/-- The byte of two hexadecimal digits in either case. -/
def unhex (high low : UInt8) : Option UInt8 := do
  let a ← fromHexChar high
  let b ← fromHexChar low
  some (UInt8.ofNat (a * 16 + b))

/-- `unescape` for a path; a percent sign without two hexadecimal digits fails. -/
def unescape : Str → Option Str
  | [] => some []
  | c :: rest =>
    if c = 37 then
      match rest with
      | high :: low :: rest => do
        let byte ← unhex high low
        let path ← unescape rest
        some (byte :: path)
      | _ => none
    else (unescape rest).map (c :: ·)

/-- `validEncoded` for a path. -/
def validEncoded (text : Str) : Bool :=
  text.all fun c => (lit "!$&'()*+,;=:@[]%").contains c || !shouldEscape c

/-- A text that stands for a path, byte by byte or escape by escape. -/
inductive Spells : Str → Str → Prop
  | nil : Spells [] []
  | byte {c : UInt8} {text path : Str} : c ≠ 37 → Spells text path → Spells (c :: text) (c :: path)
  | escape {high low byte : UInt8} {text path : Str} :
      unhex high low = some byte → Spells text path →
      Spells (37 :: high :: low :: text) (byte :: path)

theorem unescape_eq_some_iff {text path : Str} : unescape text = some path ↔ Spells text path := by
  constructor
  · intro decoded
    fun_induction unescape text generalizing path with
    | case1 =>
      cases decoded
      exact .nil
    | case2 high low rest ih =>
      simp only [Option.bind_eq_bind, Option.bind_eq_some_iff, Option.some.injEq] at decoded
      obtain ⟨byte, digits, tail, later, rfl⟩ := decoded
      exact .escape digits (ih later)
    | case3 => simp at decoded
    | case4 c rest other ih =>
      obtain ⟨tail, later, rfl⟩ := Option.map_eq_some_iff.mp decoded
      exact .byte other (ih later)
  · intro spelled
    induction spelled with
    | nil => rfl
    | byte other _ ih =>
      unfold unescape
      rw [if_neg other, ih, Option.map_some]
    | escape digits _ ih =>
      simp only [unescape, if_true, digits, ih, Option.bind_eq_bind, Option.bind_some]

namespace Spells

variable {text path first second : Str}

theorem append {left right : Str} (one : Spells first left) (two : Spells second right) :
    Spells (first ++ second) (left ++ right) := by
  induction one with
  | nil => exact two
  | byte other _ ih => exact .byte other ih
  | escape digits _ ih => exact .escape digits ih

theorem eq_nil (spelled : Spells text []) : text = [] := by
  cases spelled
  rfl

theorem nil_iff (spelled : Spells text path) : text = [] ↔ path = [] := by
  cases spelled <;> simp

theorem unique {other : Str} (one : Spells text path) (two : Spells text other) : path = other :=
  Option.some.inj ((unescape_eq_some_iff.mpr one).symm.trans (unescape_eq_some_iff.mpr two))

/-- Where two spellings of one path are followed by any texts and the results
agree, the spellings agree. -/
theorem append_cancel {tail rest : Str} (one : Spells first path) (two : Spells second path)
    (same : first ++ tail = second ++ rest) : first = second ∧ tail = rest := by
  -- both texts open with the same escape or the same byte, as they open one text
  induction one generalizing second with
  | nil =>
    have empty := two.eq_nil
    subst empty
    exact ⟨rfl, same⟩
  | byte plain _ ih =>
    cases two with
    | byte _ more =>
      simp only [List.cons_append, List.cons.injEq, true_and] at same ⊢
      exact ih more same
    | escape => simp_all
  | escape _ _ ih =>
    cases two with
    | byte plain => simp_all
    | escape _ more =>
      simp only [List.cons_append, List.cons.injEq, true_and] at same ⊢
      obtain ⟨high, low, same⟩ := same
      obtain ⟨front, back⟩ := ih more same
      exact ⟨⟨high, low, front⟩, back⟩

theorem eq_of_percent_free (spelled : Spells text path) (free : 37 ∉ text) : path = text := by
  induction spelled with
  | nil => rfl
  | byte _ _ ih =>
    simp only [List.mem_cons, not_or] at free
    rw [ih free.2]
  | escape => simp at free

theorem slash (spelled : Spells text path) : Spells (47 :: text) (47 :: path) :=
  .byte (by decide) spelled

theorem of_slash (spelled : Spells (47 :: text) path) : ∃ rest, path = 47 :: rest ∧ Spells text rest := by
  cases spelled with
  | byte _ more => exact ⟨_, rfl, more⟩

end Spells

/-- The text after the first `count` bytes of the path that it spells. -/
def dropEscaped : Nat → Str → Str
  | 0, text => text
  | _ + 1, [] => []
  | count + 1, c :: rest =>
    if c = 37 then dropEscaped count (rest.drop 2) else dropEscaped count rest

theorem Spells.dropEscaped {text path : Str} (spelled : Spells text path) (count : Nat) :
    Spells (dropEscaped count text) (path.drop count) := by
  induction spelled generalizing count with
  | nil => cases count <;> exact .nil
  | byte other more ih =>
    cases count with
    | zero => exact .byte other more
    | succ count =>
      simp only [Go.dropEscaped, other, if_false, List.drop_succ_cons]
      exact ih count
  | escape digits more ih =>
    cases count with
    | zero => exact .escape digits more
    | succ count => exact ih count

private theorem fromHexChar_upperHexDigit :
    ∀ value < 16, fromHexChar (upperHexDigit value) = some value := by
  decide

private theorem shouldEscape_percent : shouldEscape 37 = true := by decide

theorem escape_append (a b : Str) : escape (a ++ b) = escape a ++ escape b := List.flatMap_append

theorem escape_slash (path : Str) : escape (47 :: path) = 47 :: escape path := rfl

theorem spells_escape (path : Str) : Spells (escape path) path := by
  induction path with
  | nil => exact .nil
  | cons c rest ih =>
    change Spells (escapeByte c ++ escape rest) (c :: rest)
    cases special : shouldEscape c with
    | false =>
      have other : c ≠ 37 := by
        rintro rfl
        simp [shouldEscape_percent] at special
      simp only [escapeByte, special, Bool.false_eq_true, if_false]
      exact .byte other ih
    | true =>
      have bound := c.toNat_lt
      have high := fromHexChar_upperHexDigit (c.toNat / 16) (by omega)
      have low := fromHexChar_upperHexDigit (c.toNat % 16) (by omega)
      have digits : unhex (upperHexDigit (c.toNat / 16)) (upperHexDigit (c.toNat % 16)) = some c := by
        simp only [unhex, high, low, Option.bind_eq_bind, Option.bind_some, Nat.div_add_mod',
          UInt8.ofNat_toNat]
      simp only [escapeByte, special, if_true]
      exact .escape digits ih

/-- A text in the default spelling of its path. -/
def DefaultEncoded (text : Str) : Prop := (unescape text).map escape = some text

instance (text : Str) : Decidable (DefaultEncoded text) := inferInstanceAs (Decidable (_ = _))

theorem defaultEncoded_iff {text path : Str} (spelled : Spells text path) :
    DefaultEncoded text ↔ text = escape path := by
  rw [DefaultEncoded, unescape_eq_some_iff.mpr spelled, Option.map_some, Option.some.injEq, eq_comm]

theorem validEncoded_append (a b : Str) :
    validEncoded (a ++ b) = (validEncoded a && validEncoded b) := List.all_append

private theorem digits_valid : ∀ value < 16, validEncoded [upperHexDigit value] = true := by decide

theorem validEncoded_escape (path : Str) : validEncoded (escape path) = true := by
  induction path with
  | nil => rfl
  | cons c rest ih =>
    change validEncoded (escapeByte c ++ escape rest) = true
    rw [validEncoded_append, ih, Bool.and_true]
    cases special : shouldEscape c with
    | false => simp [escapeByte, special, validEncoded]
    | true =>
      have bound := c.toNat_lt
      simp only [escapeByte, special, if_true]
      change validEncoded ([37] ++ [upperHexDigit _] ++ [upperHexDigit _]) = true
      rw [validEncoded_append, validEncoded_append, digits_valid _ (by omega),
        digits_valid _ (by omega)]
      decide

/-- The fields `Path` and `RawPath` of a `url.URL`. -/
structure URLPath where
  path : Str
  rawPath : Str
  deriving DecidableEq, Repr

/-- `setPath`: the text is kept only where it is not the default spelling. -/
def setPath (text : Str) : Option URLPath :=
  (unescape text).map fun path => ⟨path, if text = escape path then [] else text⟩

namespace URLPath

/-- `EscapedPath`. -/
def escapedPath (u : URLPath) : Str :=
  if u.rawPath ≠ [] ∧ validEncoded u.rawPath = true ∧ unescape u.rawPath = some u.path then u.rawPath
  else if u.path = lit "*" then lit "*"
  else escape u.path

theorem escapedPath_raw {u : URLPath} (kept : u.rawPath ≠ []) (valid : validEncoded u.rawPath = true)
    (spelled : Spells u.rawPath u.path) : u.escapedPath = u.rawPath :=
  if_pos ⟨kept, valid, unescape_eq_some_iff.mpr spelled⟩

theorem escapedPath_default {u : URLPath} (stale : u.rawPath = [] ∨ ¬ Spells u.rawPath u.path)
    (named : u.path ≠ lit "*") : u.escapedPath = escape u.path := by
  have dropped : ¬ (u.rawPath ≠ [] ∧ validEncoded u.rawPath = true ∧
      unescape u.rawPath = some u.path) := by
    rintro ⟨kept, _, decoded⟩
    cases stale with
    | inl empty => exact kept empty
    | inr other => exact other (unescape_eq_some_iff.mp decoded)
  rw [escapedPath, if_neg dropped, if_neg named]

theorem spells_escapedPath (u : URLPath) : Spells u.escapedPath u.path := by
  unfold escapedPath
  split
  · next kept => exact unescape_eq_some_iff.mp kept.2.2
  · split
    · next star =>
      rw [star]
      exact .byte (by decide) .nil
    · exact spells_escape u.path

theorem validEncoded_escapedPath (u : URLPath) : validEncoded u.escapedPath = true := by
  unfold escapedPath
  split
  · next kept => exact kept.2.1
  · split
    · decide
    · exact validEncoded_escape u.path

end URLPath

theorem setPath_spells {text : Str} {u : URLPath} (parsed : setPath text = some u) :
    Spells text u.path ∧ (u.rawPath = [] ∧ text = escape u.path ∨ u.rawPath = text) := by
  obtain ⟨path, decoded, rfl⟩ := Option.map_eq_some_iff.mp parsed
  refine ⟨unescape_eq_some_iff.mp decoded, ?_⟩
  by_cases same : text = escape path
  · exact .inl ⟨if_pos same, same⟩
  · exact .inr (if_neg same)

/-- A path read from a text is sent as the text or in the default spelling. -/
theorem setPath_escapedPath {text : Str} {u : URLPath} (parsed : setPath text = some u)
    (named : u.path ≠ lit "*") : u.escapedPath = text ∨ u.escapedPath = escape u.path := by
  obtain ⟨_, ⟨empty, _⟩ | raw⟩ := setPath_spells parsed
  · exact .inr (URLPath.escapedPath_default (.inl empty) named)
  · unfold URLPath.escapedPath
    rw [if_neg named, raw]
    exact ite_eq_or_eq _ _ _

end EdgeGuard.Go
