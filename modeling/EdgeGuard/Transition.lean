import Mathlib.Data.List.Induction
import Mathlib.Data.Option.Basic

/-! Machines whose actions fire or are not enabled, their finite runs, and the
induction rules for them. A run is given by its actions, so that the choices of
an environment (faults, interleavings, clock readings) are data. -/
namespace EdgeGuard.Transition
variable {S A : Type}

/-- The state after a sequence of actions, when each of them is enabled. -/
def run (step : S → A → Option S) : S → List A → Option S
  | s, [] => some s
  | s, action :: rest => (step s action).bind (fun t => run step t rest)

/-- A condition on every action of a run and the state it is taken in. -/
def Along (step : S → A → Option S) (meets : S → A → Prop) : S → List A → Prop
  | _, [] => True
  | s, action :: rest => meets s action ∧ ∀ t, step s action = some t → Along step meets t rest

instance decidableAlong (step : S → A → Option S) (meets : S → A → Prop)
    [∀ s action, Decidable (meets s action)] :
    ∀ s actions, Decidable (Along step meets s actions)
  | _, [] => isTrue trivial
  | s, action :: rest =>
    match fires : step s action with
    | none => decidable_of_iff (meets s action) (by simp [Along, fires])
    | some t =>
      have := decidableAlong step meets t rest
      decidable_of_iff (meets s action ∧ Along step meets t rest) (by simp [Along, fires])

section Rules
variable {step : S → A → Option S} {meets : S → A → Prop} {P : S → Prop}

theorem run_cons {s t : S} {action : A} {rest : List A}
    (path : run step s (action :: rest) = some t) :
    ∃ middle, step s action = some middle ∧ run step middle rest = some t :=
  Option.bind_eq_some_iff.mp path

/-- What every enabled action preserves under a condition on that action holds
after every run that meets the condition throughout. -/
theorem run_invariant_along (preserves : ∀ {s t action}, meets s action → P s →
      step s action = some t → P t)
    {s t : S} {actions : List A} (path : run step s actions = some t)
    (condition : Along step meets s actions) (initial : P s) : P t := by
  induction actions generalizing s with
  | nil =>
    cases path
    exact initial
  | cons action rest ih =>
    obtain ⟨middle, stepped, path⟩ := run_cons path
    exact ih path (condition.2 middle stepped) (preserves condition.1 initial stepped)

theorem along_cons {s t : S} {action : A} {rest : List A} (met : meets s action)
    (stepped : step s action = some t) (later : Along step meets t rest) :
    Along step meets s (action :: rest) := by
  refine ⟨met, ?_⟩
  intro u reached
  rw [stepped] at reached
  cases reached
  exact later

theorem along_weaken {I : S → Prop} {weaker : S → A → Prop}
    (keeps : ∀ {s t action}, meets s action → I s → step s action = some t → I t)
    (weakens : ∀ {s t action}, meets s action → I s → step s action = some t → weaker s action)
    {s t : S} {actions : List A} (path : run step s actions = some t)
    (condition : Along step meets s actions) (initial : I s) : Along step weaker s actions := by
  induction actions generalizing s with
  | nil => trivial
  | cons action rest ih =>
    obtain ⟨middle, stepped, path⟩ := run_cons path
    exact along_cons (weakens condition.1 initial stepped) stepped
      (ih path (condition.2 middle stepped) (keeps condition.1 initial stepped))

theorem along_of_forall {actions : List A} (met : ∀ s, ∀ action ∈ actions, meets s action) (s : S) :
    Along step meets s actions := by
  induction actions generalizing s with
  | nil => trivial
  | cons action rest ih =>
    refine ⟨met s action (by simp), ?_⟩
    intro t _
    exact ih (fun s other member => met s other (by simp [member])) t

theorem run_invariant (preserves : ∀ {s t action}, P s → step s action = some t → P t)
    {s t : S} {actions : List A} (path : run step s actions = some t) (initial : P s) : P t := by
  induction actions generalizing s with
  | nil =>
    cases path
    exact initial
  | cons action rest ih =>
    obtain ⟨middle, stepped, path⟩ := run_cons path
    exact ih path (preserves initial stepped)

/-- A property that each action keeps exactly when it meets a condition holds
after a run exactly when the condition is met throughout. -/
theorem run_iff_along {Inv : S → Prop}
    (keeps : ∀ {s t action}, Inv s → step s action = some t → Inv t)
    (exact_step : ∀ {s t action}, Inv s → step s action = some t → (P t ↔ P s ∧ meets s action))
    {s t : S} {actions : List A} (path : run step s actions = some t) (initial : Inv s) :
    P t ↔ P s ∧ Along step meets s actions := by
  induction actions generalizing s with
  | nil =>
    cases path
    simp [Along]
  | cons action rest ih =>
    obtain ⟨middle, stepped, path⟩ := run_cons path
    rw [ih path (keeps initial stepped), exact_step initial stepped]
    constructor
    · rintro ⟨⟨start, met⟩, later⟩
      exact ⟨start, along_cons met stepped later⟩
    · rintro ⟨start, met, later⟩
      exact ⟨⟨start, met⟩, later middle stepped⟩

theorem run_append {s t : S} {first : List A} (path : run step s first = some t) (second : List A) :
    run step s (first ++ second) = run step t second := by
  induction first generalizing s with
  | nil =>
    cases path
    rfl
  | cons action rest ih =>
    obtain ⟨middle, stepped, path⟩ := run_cons path
    rw [List.cons_append, run, stepped]
    exact ih path

theorem along_append {s t : S} {first second : List A} (path : run step s first = some t)
    (earlier : Along step meets s first) (later : Along step meets t second) :
    Along step meets s (first ++ second) := by
  induction first generalizing s with
  | nil =>
    cases path
    exact later
  | cons action rest ih =>
    obtain ⟨middle, stepped, path⟩ := run_cons path
    exact along_cons earlier.1 stepped (ih path (earlier.2 middle stepped))

theorem run_split {s u : S} {first second : List A} (path : run step s (first ++ second) = some u) :
    ∃ t, run step s first = some t ∧ run step t second = some u := by
  induction first generalizing s with
  | nil => exact ⟨s, rfl, path⟩
  | cons action rest ih =>
    obtain ⟨middle, stepped, path⟩ := run_cons path
    obtain ⟨t, earlier, later⟩ := ih path
    refine ⟨t, ?_, later⟩
    rw [run, stepped]
    exact earlier

theorem run_concat {s u : S} {first : List A} {action : A} (path : run step s (first ++ [action]) = some u) :
    ∃ t, run step s first = some t ∧ step t action = some u := by
  obtain ⟨t, earlier, last⟩ := run_split path
  obtain ⟨v, stepped, rest⟩ := run_cons last
  cases rest
  exact ⟨t, earlier, stepped⟩

theorem run_map {T : Type} {whole : T → A → Option T} {f : S → T}
    (follows : ∀ {s t action}, step s action = some t → whole (f s) action = some (f t))
    {s t : S} {actions : List A} (path : run step s actions = some t) : run whole (f s) actions = some (f t) := by
  induction actions generalizing s with
  | nil =>
    cases path
    rfl
  | cons action rest ih =>
    obtain ⟨middle, stepped, path⟩ := run_cons path
    rw [run, follows stepped]
    exact ih path

/-- The action that a run takes after its first ones, and the state it is taken in. -/
def TakenAt (step : S → A → Option S) (start : S) (actions : List A) (n : Nat) (s : S) (action : A) : Prop :=
  run step start (actions.take n) = some s ∧ actions[n]? = some action

theorem TakenAt.append {start s : S} {actions : List A} {n : Nat} {action : A}
    (taken : TakenAt step start actions n s action) (later : List A) :
    TakenAt step start (actions ++ later) n s action := by
  obtain ⟨inside, _⟩ := List.getElem?_eq_some_iff.mp taken.2
  rw [TakenAt, List.take_append_of_le_length (Nat.le_of_lt inside), List.getElem?_append_left inside]
  exact taken

theorem takenAt_last {start s : S} {actions : List A} (path : run step start actions = some s) (action : A) :
    TakenAt step start (actions ++ [action]) actions.length s action :=
  ⟨by rw [List.take_left]; exact path, List.getElem?_concat_length⟩

/-- The rule for invariants that speak of the run so far. -/
theorem run_history {start s : S} {actions : List A} {P : List A → S → Prop}
    (preserves : ∀ {actions s t action}, run step start actions = some s → P actions s →
      step s action = some t → P (actions ++ [action]) t)
    (path : run step start actions = some s) (initial : P [] start) : P actions s := by
  induction actions using List.reverseRecOn generalizing s with
  | nil =>
    cases path
    exact initial
  | append_singleton earlier action ih =>
    obtain ⟨t, before, stepped⟩ := run_concat path
    exact preserves before (ih before) stepped

end Rules

section Writes
variable {V : Type} {step : S → A → Option S} {emit : S → A → List V}

/-- What the actions of a run write, in the order of the actions. -/
def writes (step : S → A → Option S) (emit : S → A → List V) : S → List A → List V
  | _, [] => []
  | s, action :: rest => emit s action ++
      match step s action with
      | none => []
      | some t => writes step emit t rest

theorem writes_append {s t : S} {first : List A} (path : run step s first = some t) (second : List A) :
    writes step emit s (first ++ second) = writes step emit s first ++ writes step emit t second := by
  induction first generalizing s with
  | nil =>
    cases path
    rfl
  | cons action rest ih =>
    obtain ⟨middle, stepped, path⟩ := run_cons path
    simp only [List.cons_append, writes, stepped, ih path, List.append_assoc]

theorem writes_map {W : Type} {f : V → W} (s : S) (actions : List A) :
    writes step (fun s action => (emit s action).map f) s actions = (writes step emit s actions).map f := by
  induction actions generalizing s with
  | nil => rfl
  | cons action rest ih =>
    simp only [writes, List.map_append]
    cases step s action with
    | none => rfl
    | some t =>
      dsimp only
      rw [ih t]

/-- A register that every action sets to what it writes last, if anything, holds the
last write of a run. -/
theorem run_register {I : S → Prop} {register : S → Option V}
    (keeps : ∀ {s t action}, I s → step s action = some t → I t)
    (sets : ∀ {s t action}, I s → step s action = some t →
      register t = (emit s action).getLast?.or (register s))
    {s t : S} {actions : List A} (initial : I s) (path : run step s actions = some t) :
    register t = (writes step emit s actions).getLast?.or (register s) := by
  induction actions generalizing s with
  | nil =>
    cases path
    rfl
  | cons action rest ih =>
    obtain ⟨middle, stepped, path⟩ := run_cons path
    rw [ih (keeps initial stepped) path, sets initial stepped]
    simp only [writes, stepped, List.getLast?_append, Option.or_assoc]

/-- A specification that can follow every action of a machine follows every run. What the
actions of the run write are then the actions of the specification. -/
theorem run_simulation {T : Type} {spec : T → V → Option T} {Matches : S → T → Prop}
    (follows : ∀ {s t action u}, Matches s u → step s action = some t →
      ∃ v, run spec u (emit s action) = some v ∧ Matches t v)
    {s t : S} {u : T} {actions : List A} (initial : Matches s u) (path : run step s actions = some t) :
    ∃ v, run spec u (writes step emit s actions) = some v ∧ Matches t v := by
  induction actions generalizing s u with
  | nil =>
    cases path
    exact ⟨u, rfl, initial⟩
  | cons action rest ih =>
    obtain ⟨middle, stepped, path⟩ := run_cons path
    obtain ⟨v, first, matched⟩ := follows initial stepped
    obtain ⟨w, second, last⟩ := ih matched path
    refine ⟨w, ?_, last⟩
    simp only [writes, stepped]
    rw [run_append first, second]

end Writes

theorem update_found {N V : Type} [DecidableEq N] {parties : N → Option V} {mover other : N}
    {moved : Option V} {value : V} (found : Function.update parties mover moved other = some value) :
    (parties other = some value ∧ mover ≠ other) ∨ mover = other ∧ moved = some value := by
  by_cases same : other = mover
  · subst same
    exact .inr ⟨rfl, by simpa using found⟩
  · exact .inl ⟨by simpa [same] using found, Ne.symm same⟩

section Answers
variable {O : Type} {step : S → A → S × O} {legal : A → Prop} {seen : A → Bool} {Agree : S → S → Prop}

def answers (step : S → A → S × O) : S → List A → List (A × O)
  | _, [] => []
  | s, action :: rest => (action, (step s action).2) :: answers step (step s action).1 rest

section Unwinding
variable
  (hidden : ∀ {s t action}, legal action → seen action = false → Agree s t → Agree (step s action).1 t)
  (shown : ∀ {s t action}, legal action → seen action = true → Agree s t →
    (step s action).2 = (step t action).2 ∧ Agree (step s action).1 (step t action).1)
include hidden shown

/-- Where unseen actions keep a relation between states that seen ones answer alike
in, leaving the unseen actions out changes no answer. -/
theorem answers_filter {s t : S} {actions : List A} (allowed : ∀ action ∈ actions, legal action)
    (agree : Agree s t) : (answers step s actions).filter (fun answer => seen answer.1) =
      answers step t (actions.filter seen) := by
  induction actions generalizing s t with
  | nil => rfl
  | cons action rest ih =>
    have here := allowed action List.mem_cons_self
    have later : ∀ other ∈ rest, legal other :=
      fun other member => allowed other (List.mem_cons_of_mem _ member)
    cases visibility : seen action with
    | false =>
      simp only [answers, List.filter_cons, visibility, Bool.false_eq_true, if_false]
      exact ih later (hidden here visibility agree)
    | true =>
      obtain ⟨same, agreed⟩ := shown here visibility agree
      simp only [answers, List.filter_cons, visibility, if_true]
      rw [same, ih later agreed]

variable (legal seen Agree)

theorem answers_unwinding {s : S} {first second : List A} (allowed : ∀ action ∈ first, legal action)
    (allowed' : ∀ action ∈ second, legal action) (agree : Agree s s)
    (same : first.filter seen = second.filter seen) :
    (answers step s first).filter (fun answer => seen answer.1) =
      (answers step s second).filter (fun answer => seen answer.1) := by
  rw [answers_filter hidden shown allowed agree, answers_filter hidden shown allowed' agree, same]

end Unwinding
end Answers

end EdgeGuard.Transition
