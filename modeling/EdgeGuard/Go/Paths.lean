import EdgeGuard.Go.Strings

/-! Paths as segments between slashes: when one path lies under another, and the
removal of dot segments that user agents and servers apply to a path before they
look up the resource it denotes. -/
namespace EdgeGuard.Go

/-- A path is `start` itself or continues it with a slash. -/
def Under (start path : Str) : Prop := path = start ∨ start ++ [47] <+: path

namespace Under
variable {a b path : Str}

theorem refl (path : Str) : Under path path := .inl rfl

theorem isPrefix (under : Under a path) : a <+: path := by
  rcases under with rfl | starts
  · exact List.prefix_refl _
  · exact (List.prefix_append a [47]).trans starts

theorem trans (first : Under a b) (second : Under b path) : Under a path := by
  rcases first with rfl | starts
  · exact second
  · exact .inr (starts.trans second.isPrefix)

/-- Of two paths above a third one, the shorter lies above the longer. -/
theorem of_length_le (left : Under a path) (right : Under b path) (shorter : a.length ≤ b.length) :
    Under a b := by
  obtain ⟨tail, rfl⟩ := List.prefix_of_prefix_length_le left.isPrefix right.isPrefix shorter
  cases tail with
  | nil =>
    rw [List.append_nil]
    exact refl a
  | cons byte rest =>
    rcases left with rfl | starts
    · have shortened := right.isPrefix.length_le
      simp only [List.length_append, List.length_cons] at shortened
      omega
    · -- The byte after `a` is the same in `path` and in the longer start.
      refine .inr (List.prefix_of_prefix_length_le starts right.isPrefix ?_)
      simp

end Under

def segments (path : Str) : List Str := path.splitOn 47

theorem segments_slash (a b : Str) : segments (a ++ 47 :: b) = segments a ++ segments b :=
  List.splitOnP_append_cons a b (by decide)

theorem segments_plain {a : Str} (plain : 47 ∉ a) : segments a = [a] := by
  apply List.splitOnP_eq_singleton
  intro byte member
  have different : byte ≠ 47 := fun same => plain (same ▸ member)
  simpa using different

/-- Joining two lists of segments puts a slash between them. -/
theorem intercalate_append {first rest : List Str} (left : first ≠ []) (right : rest ≠ []) :
    [47].intercalate (first ++ rest) = [47].intercalate first ++ 47 :: [47].intercalate rest := by
  induction first with
  | nil => contradiction
  | cons segment first ih =>
    cases first with
    | nil =>
      rw [List.cons_append, List.nil_append, List.intercalate_cons_of_ne_nil right,
        List.intercalate_singleton]
      simp
    | cons next first =>
      have tail := ih (List.cons_ne_nil next first)
      rw [List.cons_append, List.intercalate_cons_of_ne_nil (by simp), tail,
        List.intercalate_cons_of_ne_nil (List.cons_ne_nil next first)]
      simp

theorem intercalate_segments (path : Str) : [47].intercalate (segments path) = path :=
  List.intercalate_splitOn 47

theorem segments_injective {a b : Str} (same : segments a = segments b) : a = b := by
  rw [← intercalate_segments a, same, intercalate_segments]

/-- Lying under a path is having its segments as the first ones. -/
theorem segments_isPrefix_iff {start path : Str} :
    segments start <+: segments path ↔ Under start path := by
  constructor
  · rintro ⟨rest, cut⟩
    by_cases last : rest = []
    · rw [last, List.append_nil] at cut
      exact .inl (segments_injective cut).symm
    · have some_first : segments start ≠ [] := List.splitOn_ne_nil 47 start
      have joined := intercalate_append some_first last
      rw [cut, intercalate_segments, intercalate_segments] at joined
      exact .inr ⟨[47].intercalate rest, by rw [joined]; simp⟩
  · rintro (rfl | ⟨rest, rfl⟩)
    · exact List.prefix_refl _
    · rw [List.append_assoc, List.singleton_append, segments_slash]
      exact List.prefix_append _ _

/-- No segment is `.` or `..`. -/
def DotFree (path : Str) : Prop := ∀ segment ∈ segments path, segment ≠ lit "." ∧ segment ≠ lit ".."

instance (path : Str) : Decidable (DotFree path) := by
  unfold DotFree
  infer_instance

namespace DotFree

@[simp]
theorem slash_iff {a b : Str} : DotFree (a ++ 47 :: b) ↔ DotFree a ∧ DotFree b := by
  simp only [DotFree, segments_slash, List.forall_mem_append]

theorem plain_iff {a : Str} (plain : 47 ∉ a) : DotFree a ↔ a ≠ lit "." ∧ a ≠ lit ".." := by
  simp only [DotFree, segments_plain plain, List.forall_mem_singleton]

theorem nil : DotFree [] := by decide

@[simp]
theorem rooted_iff {path : Str} : DotFree (47 :: path) ↔ DotFree path := by
  have parts := slash_iff (a := []) (b := path)
  simpa [nil] using parts

theorem under {start path : Str} (under : Under start path) (free : DotFree path) :
    DotFree start := by
  rcases under with rfl | ⟨rest, rfl⟩
  · exact free
  · rw [List.append_assoc] at free
    exact (slash_iff.mp free).1

end DotFree

/-- A path with a dot segment lies under a path that ends in one. -/
theorem exists_dot_segment {path : Str} (dotted : ¬ DotFree path) :
    ∃ start, Under start path ∧ ¬ DotFree start ∧ start.getLast? = some 46 := by
  induction size : path.length using Nat.strong_induction_on generalizing path with
  | _ n ih =>
    by_cases slash : 47 ∈ path
    · obtain ⟨first, rest, rfl, plain⟩ := List.eq_append_cons_of_mem slash
      by_cases free : DotFree first
      · -- The dot segment comes after the first slash.
        have later : ¬ DotFree rest := fun tail => dotted (DotFree.slash_iff.mpr ⟨free, tail⟩)
        obtain ⟨start, under, found, last⟩ :=
          ih rest.length (by simp at size; omega) later rfl
        refine ⟨first ++ 47 :: start, ?_, ?_, ?_⟩
        · rcases under with rfl | ⟨tail, rfl⟩
          · exact .refl _
          · exact .inr ⟨tail, by simp⟩
        · rw [DotFree.slash_iff]
          exact fun both => found both.2
        · rw [List.getLast?_append, List.getLast?_cons, last]
          rfl
      · refine ⟨first, .inr ⟨rest, by simp⟩, free, ?_⟩
        rw [DotFree.plain_iff plain, not_and_or, not_not, not_not] at free
        rcases free with rfl | rfl <;> rfl
    · refine ⟨path, .refl path, dotted, ?_⟩
      rw [DotFree.plain_iff slash, not_and_or, not_not, not_not] at dotted
      rcases dotted with rfl | rfl <;> rfl

/-- Without the last segment and the slash in front of it, if any. -/
def dropSegment (output : Str) : Str := (output.rdropWhile (· != 47)).dropLast

/-- The removal loop on its input and output buffers; every round consumes input. -/
def removeDots : Nat → Str → Str → Str
  | 0, _, output => output
  | fuel + 1, input, output =>
    if hasPrefix input (lit "../") then removeDots fuel (input.drop 3) output
    else if hasPrefix input (lit "./") then removeDots fuel (input.drop 2) output
    else if hasPrefix input (lit "/./") then removeDots fuel (input.drop 2) output
    else if input = lit "/." then removeDots fuel (lit "/") output
    else if hasPrefix input (lit "/../") then removeDots fuel (input.drop 3) (dropSegment output)
    else if input = lit "/.." then removeDots fuel (lit "/") (dropSegment output)
    else if input = lit "." ∨ input = lit ".." then removeDots fuel [] output
    else
      -- The first segment with its leading slash, if any, up to the next slash.
      removeDots fuel ((input.drop 1).dropWhile (· != 47))
        (output ++ (input.take 1 ++ (input.drop 1).takeWhile (· != 47)))

def removeDotSegments (path : Str) : Str := removeDots path.length path []

/-- The beginnings of an input that the loop does not move to the output. -/
def dotStarts : List Str := [lit "..", lit ".", lit "/.", lit "/.."]

private theorem dotStarts_dotted : ∀ start ∈ dotStarts, ¬ DotFree start := by decide

private theorem clear_of_free {input : Str} (free : DotFree input) :
    ∀ start ∈ dotStarts, ¬ Under start input :=
  fun start member under => dotStarts_dotted start member (DotFree.under under free)

private theorem not_hasPrefix_of_clear {start text input : Str} (clear : ¬ Under start input)
    (slashed : text = start ++ [47]) : ¬ hasPrefix input text = true := by
  rw [hasPrefix_iff, slashed]
  exact fun starts => clear (.inr starts)

private theorem ne_of_clear {start input : Str} (clear : ¬ Under start input) : input ≠ start :=
  fun same => clear (.inl same)

theorem removeDots_move (fuel : Nat) {input : Str} (output : Str)
    (clear : ∀ start ∈ dotStarts, ¬ Under start input) :
    removeDots (fuel + 1) input output = removeDots fuel ((input.drop 1).dropWhile (· != 47))
      (output ++ (input.take 1 ++ (input.drop 1).takeWhile (· != 47))) := by
  have up := clear (lit "..") (by decide)
  have here := clear (lit ".") (by decide)
  have rootedHere := clear (lit "/.") (by decide)
  have rootedUp := clear (lit "/..") (by decide)
  have whole : ¬ (input = lit "." ∨ input = lit "..") :=
    not_or.mpr ⟨ne_of_clear here, ne_of_clear up⟩
  rw [removeDots, if_neg (not_hasPrefix_of_clear up (by decide)),
    if_neg (not_hasPrefix_of_clear here (by decide)),
    if_neg (not_hasPrefix_of_clear rootedHere (by decide)), if_neg (ne_of_clear rootedHere),
    if_neg (not_hasPrefix_of_clear rootedUp (by decide)), if_neg (ne_of_clear rootedUp),
    if_neg whole]

/-- What remains of the input after a segment begins with a slash. -/
private theorem rest_rooted (input : Str) :
    input.dropWhile (· != 47) = [] ∨ ∃ rest, input.dropWhile (· != 47) = 47 :: rest := by
  cases remaining : input.dropWhile (· != 47) with
  | nil => exact .inl rfl
  | cons byte rest =>
    have stopped := List.head?_dropWhile_not (· != 47) input
    rw [remaining] at stopped
    have slash : byte = 47 := by simpa using stopped
    exact .inr ⟨rest, by rw [slash]⟩

private theorem takeWhile_plain (input : Str) : 47 ∉ input.takeWhile (· != 47) := by
  intro member
  have kept := List.mem_takeWhile_imp member
  simp at kept

/-- The removal leaves an input without dot segments as it is. -/
theorem removeDots_free {fuel : Nat} {input : Str} (output : Str) (free : DotFree input)
    (enough : input.length ≤ fuel) : removeDots fuel input output = output ++ input := by
  induction fuel generalizing input output with
  | zero =>
    rw [List.eq_nil_of_length_eq_zero (Nat.le_zero.mp enough), List.append_nil]
    rfl
  | succ fuel ih =>
    rw [removeDots_move fuel output (clear_of_free free)]
    cases input with
    | nil =>
      simp only [List.drop_nil, List.dropWhile_nil]
      rw [ih _ DotFree.nil (by simp)]
      simp
    | cons byte tail =>
      have cut := List.takeWhile_append_dropWhile (p := (· != 47)) (l := tail)
      have later : DotFree (tail.dropWhile (· != 47)) := by
        rcases rest_rooted tail with done | ⟨rest, more⟩
        · rw [done]
          exact DotFree.nil
        · rw [more] at cut ⊢
          rw [← cut, ← List.cons_append, DotFree.slash_iff] at free
          exact DotFree.rooted_iff.mpr free.2
      have shorter := (List.dropWhile_suffix (l := tail) (· != 47)).length_le
      have fits : (tail.dropWhile (· != 47)).length ≤ fuel := by
        simp only [List.length_cons] at enough
        omega
      simp only [List.drop_succ_cons, List.drop_zero, List.take_succ_cons, List.take_zero]
      rw [ih _ later fits, List.append_assoc, List.append_assoc, cut]
      rfl

theorem removeDotSegments_of_dotFree {path : Str} (free : DotFree path) :
    removeDotSegments path = path := removeDots_free [] free (Nat.le_refl _)

private theorem moved_free {input : Str} (clear : ∀ start ∈ dotStarts, ¬ Under start input) :
    DotFree (input.take 1 ++ (input.drop 1).takeWhile (· != 47)) := by
  cases input with
  | nil => exact DotFree.nil
  | cons byte tail =>
    simp only [List.drop_succ_cons, List.drop_zero, List.take_succ_cons, List.take_zero,
      List.cons_append, List.nil_append]
    have above : Under (byte :: tail.takeWhile (· != 47)) (byte :: tail) := by
      have cut := List.takeWhile_append_dropWhile (p := (· != 47)) (l := tail)
      rcases rest_rooted tail with done | ⟨rest, more⟩
      · rw [done, List.append_nil] at cut
        rw [cut]
        exact .refl _
      · rw [more] at cut
        exact .inr ⟨rest, by simp [cut]⟩
    have plain := takeWhile_plain tail
    have unlike : ∀ start ∈ dotStarts, byte :: tail.takeWhile (· != 47) ≠ start :=
      fun start member same => clear start member (same ▸ above)
    by_cases slash : byte = 47
    · subst slash
      rw [DotFree.rooted_iff, DotFree.plain_iff plain]
      constructor
      · intro here
        exact unlike (lit "/.") (by decide) (by rw [here]; rfl)
      · intro up
        exact unlike (lit "/..") (by decide) (by rw [up]; rfl)
    · rw [DotFree.plain_iff (by simp [plain, Ne.symm slash])]
      exact ⟨unlike (lit ".") (by decide), unlike (lit "..") (by decide)⟩

private theorem dropSegment_free {output : Str} (free : DotFree output) :
    DotFree (dropSegment output) := by
  by_cases empty : output.rdropWhile (· != 47) = []
  · rw [dropSegment, empty]
    exact DotFree.nil
  · have last := List.rdropWhile_last_not (· != 47) output empty
    have slash : (output.rdropWhile (· != 47)).getLast empty = 47 := by simpa using last
    have cut := List.dropLast_append_getLast empty
    rw [slash] at cut
    refine DotFree.under (.inr ?_) free
    rw [dropSegment, cut]
    exact List.rdropWhile_prefix _ _

private theorem unmoved {output tail : Str}
    (joint : output = [] ∨ 46 :: tail = [] ∨ ∃ rest, 46 :: tail = 47 :: rest) : output = [] := by
  simpa using joint

/-- Whatever the input, the removal adds no dot segment to the output: before the
first move the output is empty, after it the input begins with a slash. -/
theorem removeDots_output {fuel : Nat} {input output : Str} (free : DotFree output)
    (joint : output = [] ∨ input = [] ∨ ∃ rest, input = 47 :: rest) :
    DotFree (removeDots fuel input output) := by
  induction fuel generalizing input output with
  | zero => exact free
  | succ fuel ih =>
    by_cases clear : ∀ start ∈ dotStarts, ¬ Under start input
    · rw [removeDots_move fuel output clear]
      have moved := moved_free clear
      refine ih ?_ (.inr (rest_rooted _))
      rcases joint with rfl | rfl | ⟨rest, rfl⟩
      · exact moved
      · simpa using free
      · exact DotFree.slash_iff.mpr ⟨free, DotFree.rooted_iff.mp moved⟩
    have started : ∃ start ∈ dotStarts, Under start input := by simpa using clear
    obtain ⟨start, listed, under⟩ := started
    simp only [dotStarts, List.mem_cons, List.not_mem_nil, or_false] at listed
    rcases listed with rfl | rfl | rfl | rfl
    · rcases under with rfl | ⟨rest, rfl⟩
      · exact ih free (.inr (.inl rfl))
      · exact ih free (.inl (unmoved joint))
    · rcases under with rfl | ⟨rest, rfl⟩
      · exact ih free (.inr (.inl rfl))
      · exact ih free (.inl (unmoved joint))
    · rcases under with rfl | ⟨rest, rfl⟩
      · exact ih free (.inr (.inr ⟨[], rfl⟩))
      · exact ih free (.inr (.inr ⟨rest, rfl⟩))
    · rcases under with rfl | ⟨rest, rfl⟩
      · exact ih (dropSegment_free free) (.inr (.inr ⟨[], rfl⟩))
      · exact ih (dropSegment_free free) (.inr (.inr ⟨rest, rfl⟩))

theorem removeDotSegments_dotFree (path : Str) : DotFree (removeDotSegments path) :=
  removeDots_output DotFree.nil (.inl rfl)

end EdgeGuard.Go
