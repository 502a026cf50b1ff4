import Mathlib.Logic.Relation

/-!
Reachability in a labelled transition system whose steps are restricted by a guard, with the
induction rules that the invariants and simulations of a development are proved by.
-/

namespace Transition

variable {State Event : Type*}

/-- The states reached from `start` by steps whose guard holds where they are taken. -/
inductive Reaches (start : State → Prop) (guard : State → Event → Prop)
    (step : State → Event → State → Prop) : State → Prop
  | start {s} (init : start s) : Reaches start guard step s
  | next {s e s'} (reach : Reaches start guard step s) (allowed : guard s e) (taken : step s e s') :
    Reaches start guard step s'

variable {start : State → Prop} {guard : State → Event → Prop} {step : State → Event → State → Prop}

namespace Reaches

/-- What holds at the start and is kept by every allowed step holds in every reached state. -/
theorem invariant {s : State} (reach : Reaches start guard step s) (invariant : State → Prop)
    (base : ∀ s, start s → invariant s)
    (preserve : ∀ s e s', invariant s → guard s e → step s e s' → invariant s') : invariant s := by
  induction reach with
  | start init => exact base _ init
  | next _ allowed taken ih => exact preserve _ _ _ ih allowed taken

/-- As `invariant`, where the states that steps are taken from are known to be reached. -/
theorem reached_invariant {s : State} (reach : Reaches start guard step s) (invariant : State → Prop)
    (base : ∀ s, start s → invariant s)
    (preserve : ∀ s e s', Reaches start guard step s → invariant s → guard s e → step s e s' →
      invariant s') : invariant s := by
  induction reach with
  | start init => exact base _ init
  | next before allowed taken ih => exact preserve _ _ _ before ih allowed taken

/-- A weaker guard reaches at least the same states. -/
theorem mono {guard' : State → Event → Prop} {s : State} (reach : Reaches start guard step s)
    (weaker : ∀ s e, guard s e → guard' s e) : Reaches start guard' step s := by
  induction reach with
  | start init => exact .start init
  | next _ allowed taken ih => exact .next ih (weaker _ _ allowed) taken

/-- A map that carries start states to start states and allowed steps to allowed steps carries
reached states to reached states. -/
theorem map {State' Event' : Type*} {start' : State' → Prop} {guard' : State' → Event' → Prop}
    {step' : State' → Event' → State' → Prop} {s : State} (reach : Reaches start guard step s)
    (view : State → State') (label : State → Event → Event') (base : ∀ s, start s → start' (view s))
    (forward : ∀ s e s', guard s e → step s e s' →
      guard' (view s) (label s e) ∧ step' (view s) (label s e) (view s')) :
    Reaches start' guard' step' (view s) := by
  induction reach with
  | start init => exact .start (base _ init)
  | next _ allowed taken ih =>
    obtain ⟨allowed', taken'⟩ := forward _ _ _ allowed taken
    exact .next ih allowed' taken'

end Reaches

section History
variable {History : Type*} {record : State → Event → State → History → History} {origin : History}

/-- A step that also brings a history of the run up to date. -/
def Recorded (step : State → Event → State → Prop)
    (record : State → Event → State → History → History) (x : State × History) (e : Event)
    (y : State × History) : Prop :=
  step x.1 e y.1 ∧ y.2 = record x.1 e y.1 x.2

/-- The states of a run together with what the run has recorded, from `origin` on. -/
def Recording (start : State → Prop) (guard : State → Event → Prop)
    (step : State → Event → State → Prop) (record : State → Event → State → History → History)
    (origin : History) : State × History → Prop :=
  Reaches (fun x => start x.1 ∧ x.2 = origin) (fun x e => guard x.1 e) (Recorded step record)

/-- Recording a run does not change it. -/
theorem Recording.reaches {x : State × History}
    (recording : Recording start guard step record origin x) : Reaches start guard step x.1 :=
  recording.map Prod.fst (fun _ e => e) (fun _ init => init.1) fun _ _ _ allowed taken =>
    ⟨allowed, taken.1⟩

end History

/-- The state after a list of events, where the step is a partial function. -/
def runList {Failure : Type*} (next : State → Event → Except Failure State) :
    List Event → State → Except Failure State
  | [], s => .ok s
  | e :: es, s =>
    match next s e with
    | .error failure => .error failure
    | .ok s' => runList next es s'

/-- A run of a partial function is a path of its graph. -/
theorem Reaches.of_runList {Failure : Type*} {next : State → Event → Except Failure State}
    {events : List Event} {s s' : State}
    (reach : Reaches start guard (fun s e s' => next s e = .ok s') s)
    (allowed : ∀ s, ∀ e ∈ events, guard s e) (run : runList next events s = .ok s') :
    Reaches start guard (fun s e s' => next s e = .ok s') s' := by
  induction events generalizing s with
  | nil =>
    simp only [runList, Except.ok.injEq] at run
    exact run ▸ reach
  | cons e es ih =>
    simp only [runList] at run
    split at run
    · simp at run
    · next s₁ taken =>
      have head : guard s e := allowed s e (by simp)
      exact ih (.next reach head taken) (fun s e' member => allowed s e' (by simp [member])) run

/-- A run of a partial function whose results are allowed steps ends in a reached state. -/
theorem Reaches.exists_of_runList {Failure : Type*} {next : State → Event → Except Failure State}
    {s : State} (reach : Reaches start guard step s) (events : List Event)
    (sound : ∀ e ∈ events, ∀ {s s'}, next s e = .ok s' → guard s e ∧ step s e s')
    (goal : State → Prop) [DecidablePred goal]
    (found : (runList next events s).toOption.any (fun s => goal s) = true) :
    ∃ s', Reaches start guard step s' ∧ goal s' := by
  induction events generalizing s with
  | nil => exact ⟨s, reach, by simpa [runList, Except.toOption] using found⟩
  | cons e es ih =>
    rcases taken : next s e with failure | s₁
    · simp [runList, taken, Except.toOption] at found
    · obtain ⟨allowed, moved⟩ := sound e (by simp) taken
      exact ih (.next reach allowed moved) (fun e' member => sound e' (by simp [member]))
        (by simpa [runList, taken] using found)

/-- A partial function that also brings a history up to date. -/
def recorded {Failure History : Type*} (next : State → Event → Except Failure State)
    (record : State → Event → State → History → History) (x : State × History) (e : Event) :
    Except Failure (State × History) :=
  match next x.1 e with
  | .error failure => .error failure
  | .ok s' => .ok (s', record x.1 e s' x.2)

/-- A recorded run of a partial function whose results are allowed steps. -/
theorem Recording.exists_of_runList {Failure History : Type*}
    {next : State → Event → Except Failure State} {record : State → Event → State → History → History}
    {origin : History} {s : State} (init : start s) (events : List Event)
    (sound : ∀ e ∈ events, ∀ {s s'}, next s e = .ok s' → guard s e ∧ step s e s')
    (goal : State × History → Prop) [DecidablePred goal]
    (found : (runList (recorded next record) events (s, origin)).toOption.any (fun x => goal x) = true) :
    ∃ x, Recording start guard step record origin x ∧ goal x := by
  refine Reaches.exists_of_runList (.start ⟨init, rfl⟩) events (fun e member x y taken => ?_) goal found
  rw [recorded] at taken
  split at taken
  · simp at taken
  · next s' moved =>
    obtain ⟨allowed, step⟩ := sound e member moved
    obtain rfl := Except.ok.inj taken
    exact ⟨allowed, step, rfl⟩

end Transition
