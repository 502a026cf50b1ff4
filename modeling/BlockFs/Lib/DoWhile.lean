import BlockFs.Lib.Fallible

/-!
Loops whose body runs before the test, with the rule for a loop whose number of rounds is known.
-/

namespace Loop

variable {State Failure : Type}

/-- A loop that a round leaves by saying that it was the last. A round may fail, and so does a loop
whose rounds are `spent`. -/
def doWhile (round : State → Except Failure (State × Bool)) (spent : Failure) :
    Nat → State → Except Failure State
  | 0, _ => .error spent
  | fuel + 1, s => do
    let (s, last) ← round s
    if last then .ok s else doWhile round spent fuel s

variable {round : State → Except Failure (State × Bool)} {spent : Failure}

theorem doWhile_last {s s' : State} (ends : round s = .ok (s', true)) (fuel : Nat) :
    doWhile round spent (fuel + 1) s = .ok s' := by
  rw [doWhile, ends, Except.ok_bind]
  exact if_pos rfl

theorem doWhile_next {s s' : State} (goes : round s = .ok (s', false)) (fuel : Nat) :
    doWhile round spent (fuel + 1) s = doWhile round spent fuel s' := by
  rw [doWhile, goes, Except.ok_bind]
  exact if_neg Bool.false_ne_true

/-- The rule of total correctness. Where each round below `rounds` succeeds, carries the invariant
on and is the last exactly when the count is full, the loop ends after `rounds` rounds. -/
theorem doWhile_counted {inv : Nat → State → Prop} {rounds : Nat}
    (step : ∀ k < rounds, ∀ s, inv k s →
      ∃ s', round s = .ok (s', decide (k + 1 = rounds)) ∧ inv (k + 1) s')
    {k fuel : Nat} {s : State} (less : k < rounds) (holds : inv k s) (enough : rounds ≤ fuel + k) :
    ∃ s', doWhile round spent fuel s = .ok s' ∧ inv rounds s' := by
  induction fuel generalizing k s with
  | zero => omega
  | succ fuel ih =>
    obtain ⟨s', ran, kept⟩ := step k less s holds
    by_cases full : k + 1 = rounds
    · rw [decide_eq_true full] at ran
      exact ⟨s', doWhile_last ran fuel, full ▸ kept⟩
    · rw [decide_eq_false full] at ran
      rw [doWhile_next ran fuel]
      exact ih (by omega) kept (by omega)

end Loop
