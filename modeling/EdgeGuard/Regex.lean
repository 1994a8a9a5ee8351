import EdgeGuard.Transition
import Mathlib.Data.List.Basic

/-! Regular expressions over bytes: what they match in a subject, with anchors for its
two ends, and how a text is read as one. Fourteen bytes are special; behind a backslash
each of them stands for itself. -/
namespace EdgeGuard.Regex
open Transition

inductive Expr where
  | empty
  | byte (c : UInt8)
  | any
  | set (negated : Bool) (members : List (UInt8 × UInt8))
  | start
  | finish
  | cat (first second : Expr)
  | alt (first second : Expr)
  | star (body : Expr)
  deriving DecidableEq, Repr

namespace Expr

def seq : List Expr → Expr
  | [] => .empty
  | item :: rest => .cat item (seq rest)

def plus (body : Expr) : Expr := .cat body (.star body)

def opt (body : Expr) : Expr := .alt body .empty

def times (body : Expr) : Nat → Expr
  | 0 => .empty
  | n + 1 => .cat body (times body n)

def upTo (body : Expr) : Nat → Expr
  | 0 => .empty
  | n + 1 => opt (.cat body (upTo body n))

end Expr

/-- The middle of a subject is matched where it stands. -/
inductive Matches : Expr → List UInt8 → List UInt8 → List UInt8 → Prop
  | empty (pre post : List UInt8) : Matches .empty pre [] post
  | byte (pre : List UInt8) (c : UInt8) (post : List UInt8) : Matches (.byte c) pre [c] post
  | any (pre : List UInt8) (c : UInt8) (post : List UInt8) (inLine : c ≠ 10) : Matches .any pre [c] post
  | set (pre : List UInt8) (c : UInt8) (post : List UInt8) (negated : Bool) (members : List (UInt8 × UInt8))
      (member : members.any (fun range => range.1 ≤ c && c ≤ range.2) = !negated) :
      Matches (.set negated members) pre [c] post
  | start (post : List UInt8) : Matches .start [] [] post
  | finish (pre : List UInt8) : Matches .finish pre [] []
  | cat {first second : Expr} {pre left right post : List UInt8} (one : Matches first pre left (right ++ post))
      (two : Matches second (pre ++ left) right post) : Matches (.cat first second) pre (left ++ right) post
  | altFirst {first second : Expr} {pre middle post : List UInt8} (one : Matches first pre middle post) :
      Matches (.alt first second) pre middle post
  | altSecond {first second : Expr} {pre middle post : List UInt8} (two : Matches second pre middle post) :
      Matches (.alt first second) pre middle post
  | starNone (body : Expr) (pre post : List UInt8) : Matches (.star body) pre [] post
  | starMore {body : Expr} {pre left right post : List UInt8} (one : Matches body pre left (right ++ post))
      (more : Matches (.star body) (pre ++ left) right post) : Matches (.star body) pre (left ++ right) post

/-- The expression matches somewhere in the subject. -/
def Finds (expr : Expr) (subject : List UInt8) : Prop :=
  ∃ pre middle post, subject = pre ++ middle ++ post ∧ Matches expr pre middle post

section Rules
variable {pre middle post : List UInt8}

theorem matches_empty_iff : Matches .empty pre middle post ↔ middle = [] := by
  constructor
  · rintro ⟨⟩
    rfl
  · rintro rfl
    exact .empty pre post

theorem matches_byte_iff {c : UInt8} : Matches (.byte c) pre middle post ↔ middle = [c] := by
  constructor
  · rintro ⟨⟩
    rfl
  · rintro rfl
    exact .byte pre c post

theorem matches_start_iff : Matches .start pre middle post ↔ pre = [] ∧ middle = [] := by
  constructor
  · rintro ⟨⟩
    exact ⟨rfl, rfl⟩
  · rintro ⟨rfl, rfl⟩
    exact .start post

theorem matches_finish_iff : Matches .finish pre middle post ↔ middle = [] ∧ post = [] := by
  constructor
  · rintro ⟨⟩
    exact ⟨rfl, rfl⟩
  · rintro ⟨rfl, rfl⟩
    exact .finish pre

theorem matches_cat_iff {first second : Expr} : Matches (.cat first second) pre middle post ↔
    ∃ left right, middle = left ++ right ∧ Matches first pre left (right ++ post) ∧
      Matches second (pre ++ left) right post := by
  constructor
  · rintro ⟨⟩
    exact ⟨_, _, rfl, ‹_›, ‹_›⟩
  · rintro ⟨left, right, rfl, one, two⟩
    exact .cat one two

theorem matches_bytes_iff {bytes : List UInt8} {rest : List Expr} :
    Matches (.seq (bytes.map .byte ++ rest)) pre middle post ↔
      ∃ tail, middle = bytes ++ tail ∧ Matches (.seq rest) (pre ++ bytes) tail post := by
  induction bytes generalizing pre middle with
  | nil => simp
  | cons c bytes ih =>
    simp only [List.map_cons, List.cons_append, Expr.seq, matches_cat_iff, matches_byte_iff, ih]
    constructor
    · rintro ⟨_, _, rfl, rfl, tail, rfl, found⟩
      exact ⟨tail, rfl, by simpa using found⟩
    · rintro ⟨tail, rfl, found⟩
      exact ⟨[c], bytes ++ tail, rfl, rfl, tail, rfl, by simpa using found⟩

end Rules

/-- Between both anchors, the bytes are the whole subject. -/
theorem finds_anchored_iff (bytes subject : List UInt8) :
    Finds (.seq (.start :: (bytes.map .byte ++ [.finish]))) subject ↔ subject = bytes := by
  simp only [Finds, Expr.seq, matches_cat_iff, matches_start_iff, matches_bytes_iff, matches_finish_iff,
    matches_empty_iff]
  constructor
  · rintro ⟨_, _, _, rfl, _, _, rfl, ⟨rfl, rfl⟩, _, rfl, _, _, rfl, ⟨rfl, ended⟩, rfl⟩
    simpa using ended
  · rintro rfl
    exact ⟨[], subject, [], by simp, [], subject, rfl, ⟨rfl, rfl⟩, [], by simp, [], [], rfl, ⟨rfl, rfl⟩, rfl⟩

inductive Special where
  | backslash
  | dot
  | plus
  | star
  | question
  | openParen
  | closeParen
  | openBracket
  | closeBracket
  | openBrace
  | closeBrace
  | caret
  | dollar
  | bar
  deriving DecidableEq, Repr

namespace Special

def byte : Special → UInt8
  | backslash => 92
  | dot => 46
  | plus => 43
  | star => 42
  | question => 63
  | openParen => 40
  | closeParen => 41
  | openBracket => 91
  | closeBracket => 93
  | openBrace => 123
  | closeBrace => 125
  | caret => 94
  | dollar => 36
  | bar => 124

def all : List Special :=
  [backslash, dot, plus, star, question, openParen, closeParen, openBracket, closeBracket, openBrace, closeBrace,
    caret, dollar, bar]

def ofByte (c : UInt8) : Option Special := all.find? (·.byte == c)

theorem byte_of_ofByte {c : UInt8} {special : Special} (found : ofByte c = some special) : special.byte = c := by
  simpa using List.find?_some found

end Special

inductive Lexeme where
  | literal (c : UInt8)
  | special (special : Special)
  deriving DecidableEq, Repr

/-- A backslash takes the special byte behind it; before any other byte, or at the end,
it is an error. -/
def lex : List UInt8 → Option (List Lexeme)
  | [] => some []
  | c :: rest => match Special.ofByte c with
    | none => (lex rest).map (.literal c :: ·)
    | some .backslash => match rest with
      | [] => none
      | escaped :: rest =>
        if (Special.ofByte escaped).isSome then (lex rest).map (.literal escaped :: ·) else none
    | some special => (lex rest).map (.special special :: ·)

/-- An alternation that is being read: the branches before the last bar, and the items
of the present one, the last item first. -/
structure Frame where
  before : Option Expr
  items : List Expr

def Frame.expr (frame : Frame) : Expr :=
  match frame.before with
  | none => .seq frame.items.reverse
  | some before => .alt before (.seq frame.items.reverse)

/-- Inside brackets a set is read, its ranges last first, and inside braces the text of a count. -/
inductive Mode where
  | items
  | set (negated : Bool) (members : List (UInt8 × UInt8)) (ranges : Bool)
  | count (text : List UInt8)

structure Reader where
  frame : Frame
  outer : List Frame
  mode : Mode

def Reader.begin : Reader := ⟨⟨none, []⟩, [], .items⟩

namespace Reader

def push (reader : Reader) (item : Expr) : Reader :=
  { reader with frame := { reader.frame with items := item :: reader.frame.items }, mode := .items }

/-- A repetition is of the last item; there has to be one. -/
def repeatLast (reader : Reader) (repeated : Expr → Expr) : Option Reader :=
  match reader.frame.items with
  | [] => none
  | item :: rest => some ({ reader with frame := { reader.frame with items := rest } }.push (repeated item))

def readItem (reader : Reader) : Special → Option Reader
  | .dot => some (reader.push .any)
  | .caret => some (reader.push .start)
  | .dollar => some (reader.push .finish)
  | .star => reader.repeatLast .star
  | .plus => reader.repeatLast .plus
  | .question => reader.repeatLast .opt
  | .bar => some { reader with frame := ⟨some reader.frame.expr, []⟩ }
  | .openParen => some { reader with frame := ⟨none, []⟩, outer := reader.frame :: reader.outer }
  | .closeParen => match reader.outer with
    | [] => none
    | frame :: outer => some ({ reader with frame, outer }.push reader.frame.expr)
  | .openBracket => some { reader with mode := .set false [] false }
  | .openBrace => some { reader with mode := .count [] }
  | .backslash | .closeBracket | .closeBrace => none

/-- A member of a set, which ends the range that a dash has begun. -/
def readMember (reader : Reader) (negated : Bool) (members : List (UInt8 × UInt8)) (ranges : Bool) (c : UInt8) :
    Reader :=
  match ranges, members with
  | true, (low, _) :: rest => { reader with mode := .set negated ((low, c) :: rest) false }
  | _, _ =>
    if c = 45 ∧ members ≠ [] then { reader with mode := .set negated members true }
    else { reader with mode := .set negated ((c, c) :: members) false }

def readSet (reader : Reader) (negated : Bool) (members : List (UInt8 × UInt8)) (ranges : Bool) :
    Lexeme → Option Reader
  | .special .closeBracket =>
    if members = [] then none
    else some (reader.push (.set negated (if ranges then (45, 45) :: members else members)))
  | .special .caret =>
    if members = [] ∧ negated = false then some { reader with mode := .set true [] false }
    else some (reader.readMember negated members ranges Special.caret.byte)
  | .special special => some (reader.readMember negated members ranges special.byte)
  | .literal c => some (reader.readMember negated members ranges c)

def number (digits : List UInt8) : Option Nat :=
  if digits ≠ [] ∧ digits.all (fun c => 48 ≤ c && c ≤ 57) then
    some (digits.foldl (fun n c => 10 * n + (c.toNat - 48)) 0)
  else none

/-- The bounds of a count: one number, or two with a comma, the second of which may be left out. -/
def bounds (text : List UInt8) : Option (Expr → Expr) :=
  match text.splitOn 44 with
  | [least] => do
    let least ← number least
    some (·.times least)
  | [least, []] => do
    let least ← number least
    some (fun body => .cat (body.times least) (.star body))
  | [least, most] => do
    let least ← number least
    let most ← number most
    if least ≤ most then some (fun body => .cat (body.times least) (body.upTo (most - least))) else none
  | _ => none

def readCount (reader : Reader) (text : List UInt8) : Lexeme → Option Reader
  | .special .closeBrace => do
    let repeated ← bounds text
    reader.repeatLast repeated
  | .special _ => none
  | .literal c => some { reader with mode := .count (text ++ [c]) }

def read (reader : Reader) (lexeme : Lexeme) : Option Reader :=
  match reader.mode with
  | .items => match lexeme with
    | .literal c => some (reader.push (.byte c))
    | .special special => reader.readItem special
  | .set negated members ranges => reader.readSet negated members ranges lexeme
  | .count text => reader.readCount text lexeme

/-- Every bracket, brace and parenthesis is closed at the end. -/
def finished (reader : Reader) : Option Expr :=
  match reader.mode, reader.outer with
  | .items, [] => some reader.frame.expr
  | _, _ => none

end Reader

def parse (text : List UInt8) : Option Expr := do
  let lexemes ← lex text
  let reader ← run Reader.read .begin lexemes
  reader.finished

/-- The pattern is a regular expression, and it is found in the subject. -/
def MatchesText (pattern subject : List UInt8) : Prop := ∃ expr, parse pattern = some expr ∧ Finds expr subject

/-- A byte, behind a backslash when it is special. -/
def quoteByte (c : UInt8) : List UInt8 := if (Special.ofByte c).isSome then [92, c] else [c]

def quote (text : List UInt8) : List UInt8 := text.flatMap quoteByte

theorem lex_quoteByte (c : UInt8) (rest : List UInt8) :
    lex (quoteByte c ++ rest) = (lex rest).map (.literal c :: ·) := by
  unfold quoteByte
  split
  · next special => exact if_pos special
  · next plain =>
    rw [Bool.not_eq_true, Option.isSome_eq_false_iff, Option.isNone_iff_eq_none] at plain
    rw [List.singleton_append, lex.eq_def]
    simp only [plain]

theorem lex_quote (text rest : List UInt8) :
    lex (quote text ++ rest) = (lex rest).map (text.map .literal ++ ·) := by
  induction text with
  | nil => simp [quote]
  | cons c text ih =>
    rw [quote, List.flatMap_cons, List.append_assoc, lex_quoteByte]
    rw [quote] at ih
    rw [ih, Option.map_map]
    rfl

/-- Literals are items of their own, one after another. -/
theorem run_literals (reader : Reader) (items : reader.mode = .items) (text : List UInt8) :
    run Reader.read reader (text.map .literal) =
      some { reader with frame := { reader.frame with items := (text.map .byte).reverse ++ reader.frame.items } } := by
  induction text generalizing reader with
  | nil => rfl
  | cons c text ih =>
    have stepped : reader.read (.literal c) = some (reader.push (.byte c)) := by
      simp only [Reader.read, items]
    simp only [List.map_cons, run, stepped, Option.bind_some]
    rw [ih _ rfl]
    simp [Reader.push, items]

/-- Between anchors, a quoted text is read as its bytes. -/
theorem parse_anchored (text : List UInt8) :
    parse (Special.caret.byte :: (quote text ++ [Special.dollar.byte])) =
      some (.seq (.start :: (text.map .byte ++ [.finish]))) := by
  have lexed : lex (Special.caret.byte :: (quote text ++ [Special.dollar.byte])) =
      some (.special .caret :: (text.map .literal ++ [.special .dollar])) := by
    have tail : lex [Special.dollar.byte] = some [.special .dollar] := rfl
    change (lex (quote text ++ [Special.dollar.byte])).map (.special .caret :: ·) = _
    rw [lex_quote, tail]
    rfl
  have ran : run Reader.read .begin (.special .caret :: (text.map .literal ++ [.special .dollar])) =
      some ⟨⟨none, .finish :: ((text.map .byte).reverse ++ [.start])⟩, [], .items⟩ := by
    change run Reader.read ⟨⟨none, [.start]⟩, [], .items⟩ (text.map .literal ++ [.special .dollar]) = _
    rw [run_append (run_literals _ rfl text)]
    rfl
  simp only [parse, lexed, ran, Option.bind_eq_bind, Option.bind_some]
  simp [Reader.finished, Frame.expr]

-- Unquoted, the same bytes are operators.
example : parse [94, 40, 97, 46, 42, 124, 91, 98, 45, 100, 93, 123, 50, 125, 41, 36] =
    some (.seq [.start, .alt (.seq [.byte 97, .star .any]) (.seq [.times (.set false [(98, 100)]) 2]), .finish]) := by
  decide

/-- A quoted text between anchors matches that text and no other. -/
theorem matchesText_anchored_iff (text subject : List UInt8) :
    MatchesText (Special.caret.byte :: (quote text ++ [Special.dollar.byte])) subject ↔ subject = text := by
  unfold MatchesText
  rw [parse_anchored]
  constructor
  · rintro ⟨_, ⟨⟩, found⟩
    exact (finds_anchored_iff text subject).mp found
  · intro same
    exact ⟨_, rfl, (finds_anchored_iff text subject).mpr same⟩

end EdgeGuard.Regex
