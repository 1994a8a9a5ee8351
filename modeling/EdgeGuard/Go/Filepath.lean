import EdgeGuard.Go.Paths

/-! Go's `path/filepath` on Unix: `Clean`, `Join` and `Base`. A path is cleaned element
by element, without looking at the file system. -/
namespace EdgeGuard.Go.Filepath

/-- One element of the path behind those that are kept, the last kept element first.
Dots and empty elements are dropped; `..` drops the element before it, and is kept only
where there is none and the path is not rooted. -/
def cleanStep (rooted : Bool) (kept : List Str) (element : Str) : List Str :=
  if element = [] ∨ element = lit "." then kept
  else if element = lit ".." then
    match kept with
    | last :: rest => if last = lit ".." then element :: kept else rest
    | [] => if rooted then [] else [element]
  else element :: kept

def isRooted (path : Str) : Bool := path.head? == some 47

def elements (path : Str) : List Str := ((segments path).foldl (cleanStep (isRooted path)) []).reverse

/-- A path from its elements: the root is a slash, the current directory a dot. -/
def render (rooted : Bool) (elements : List Str) : Str :=
  if rooted then 47 :: [47].intercalate elements
  else if elements = [] then lit "." else [47].intercalate elements

/-- `filepath.Clean`. -/
def clean (path : Str) : Str := render (isRooted path) (elements path)

/-- `filepath.Join` of two elements. -/
def join (dir name : Str) : Str :=
  if dir = [] ∧ name = [] then []
  else if dir = [] then clean name
  else clean (dir ++ 47 :: name)

/-- `filepath.Base`: the last element, without the slashes behind it. -/
def base (path : Str) : Str :=
  if path = [] then lit "."
  else
    let last := (path.rdropWhile (· == 47)).rtakeWhile (· != 47)
    if last = [] then lit "/" else last

/-- The path that `os.CreateTemp` gives to an entry of a directory. -/
def entryPath (dir name : Str) : Str :=
  if dir.getLast? = some 47 then dir ++ name else dir ++ 47 :: name

/-- A text that names an entry of a directory. -/
structure IsName (name : Str) : Prop where
  plain : 47 ∉ name
  nonempty : name ≠ []
  notDot : name ≠ lit "."
  notDotDot : name ≠ lit ".."

/-- A path is the directory's, cleaned, with one name behind it. -/
def Child (dir path : Str) : Prop :=
  ∃ name, IsName name ∧ path = render (isRooted dir) (elements dir ++ [name])

theorem render_append (rooted : Bool) (kept : List Str) (name : Str) :
    render rooted (kept ++ [name]) =
      if kept = [] then (if rooted then 47 :: name else name) else render rooted kept ++ 47 :: name := by
  by_cases first : kept = []
  · simp [first, render]
  · have joined := intercalate_append first (List.cons_ne_nil name [])
    rw [List.intercalate_singleton] at joined
    cases rooted <;> simp [render, first, joined]

theorem render_append_injective {rooted : Bool} {kept : List Str} {a b : Str}
    (same : render rooted (kept ++ [a]) = render rooted (kept ++ [b])) : a = b := by
  rw [render_append, render_append] at same
  by_cases first : kept = []
  · cases rooted <;> simpa [first] using same
  · simpa [first] using same

theorem cleanStep_empty (rooted : Bool) (kept : List Str) : cleanStep rooted kept [] = kept := if_pos (.inl rfl)

theorem cleanStep_name {name : Str} (isName : IsName name) (rooted : Bool) (kept : List Str) :
    cleanStep rooted kept name = name :: kept := by
  simp only [cleanStep, isName.nonempty, isName.notDot, isName.notDotDot, or_self, if_false]

theorem isRooted_append {dir : Str} (given : dir ≠ []) (rest : Str) : isRooted (dir ++ rest) = isRooted dir := by
  cases dir with
  | nil => contradiction
  | cons c dir => rfl

theorem clean_append {dir rest name : Str} (given : dir ≠ []) (isName : IsName name) {before : List Str}
    (cut : segments (dir ++ rest) = before ++ [name])
    (same : before.foldl (cleanStep (isRooted dir)) [] = (segments dir).foldl (cleanStep (isRooted dir)) []) :
    clean (dir ++ rest) = render (isRooted dir) (elements dir ++ [name]) := by
  unfold clean elements
  rw [isRooted_append given, cut, List.foldl_append, same, List.foldl_cons, List.foldl_nil, cleanStep_name isName,
    List.reverse_cons]

theorem clean_slash_name {dir name : Str} (given : dir ≠ []) (isName : IsName name) :
    clean (dir ++ 47 :: name) = render (isRooted dir) (elements dir ++ [name]) :=
  clean_append given isName (by rw [segments_slash, segments_plain isName.plain]) rfl

theorem join_name {dir name : Str} (given : dir ≠ []) (isName : IsName name) :
    join dir name = render (isRooted dir) (elements dir ++ [name]) := by
  simp only [join, given, false_and, if_false, clean_slash_name given isName]

theorem join_slash_name {dir name : Str} (given : dir ≠ []) (isName : IsName name) :
    join dir (47 :: name) = render (isRooted dir) (elements dir ++ [name]) := by
  have cut : segments (dir ++ 47 :: 47 :: name) = (segments dir ++ [[]]) ++ [name] := by
    rw [segments_slash, ← List.nil_append (47 :: name), segments_slash, segments_plain isName.plain,
      segments_plain List.not_mem_nil, List.append_assoc]
  simp only [join, given, false_and, if_false]
  apply clean_append given isName cut
  rw [List.foldl_append, List.foldl_cons, List.foldl_nil, cleanStep_empty]

theorem clean_entryPath {dir name : Str} (given : dir ≠ []) (isName : IsName name) :
    clean (entryPath dir name) = render (isRooted dir) (elements dir ++ [name]) := by
  unfold entryPath
  split
  · rename_i slash
    obtain ⟨start, rfl⟩ := List.getLast?_eq_some_iff.mp slash
    have cut : segments (start ++ [47] ++ name) = segments start ++ [name] := by
      rw [List.append_assoc, List.singleton_append, segments_slash, segments_plain isName.plain]
    apply clean_append given isName cut
    rw [segments_slash, segments_plain List.not_mem_nil, List.foldl_append, List.foldl_cons, List.foldl_nil,
      cleanStep_empty]
  · exact clean_slash_name given isName

theorem base_cases (path : Str) : base path = lit "/" ∨ (47 ∉ base path ∧ base path ≠ []) := by
  unfold base
  split
  · exact .inr ⟨by decide, by decide⟩
  · dsimp only
    split
    · exact .inl rfl
    · rename_i nonempty
      refine .inr ⟨?_, nonempty⟩
      intro member
      have := List.mem_rtakeWhile_imp member
      simp at this

example : base (lit "a/b//") = lit "b" ∧ base (lit "//") = lit "/" ∧ base [] = lit "." := by decide

end EdgeGuard.Go.Filepath
