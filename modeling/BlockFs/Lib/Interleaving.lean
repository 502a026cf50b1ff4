import BlockFs.Lib.Reaches
import Mathlib.Data.Fintype.Defs
import Mathlib.Logic.Function.Basic

/-!
Threads that share a state and each keep a local one. A step of one thread reads and changes the
shared state and its own; the rule below splits an invariant of all threads into what holds of the
shared state, of each thread, and of each two threads.
-/

namespace Interleaving

variable {Tid Shared Local Event : Type*}

structure Config (Tid Shared Local : Type*) where
  shared : Shared
  threads : Tid → Local

variable [DecidableEq Tid]

/-- The step function is that of a single thread; the event says which thread takes it. -/
def Step (next : Shared → Local → Event → Option (Shared × Local)) (c : Config Tid Shared Local)
    (event : Tid × Event) (c' : Config Tid Shared Local) : Prop :=
  ∃ shared thread, next c.shared (c.threads event.1) event.2 = some (shared, thread) ∧
    c' = ⟨shared, Function.update c.threads event.1 thread⟩

abbrev Reached (next : Shared → Local → Event → Option (Shared × Local))
    (start : Config Tid Shared Local → Prop)
    (guard : Config Tid Shared Local → Tid × Event → Prop) : Config Tid Shared Local → Prop :=
  Transition.Reaches start guard (Step next)

/-- An invariant in three parts: of the shared state, of each thread next to it, and of the local
states of each two threads. -/
structure Holds (inv : Shared → Prop) (own : Shared → Local → Prop) (pair : Local → Local → Prop)
    (c : Config Tid Shared Local) : Prop where
  inv : inv c.shared
  own : ∀ t, own c.shared (c.threads t)
  pair : ∀ t t', t ≠ t' → pair (c.threads t) (c.threads t')

section Rule
variable {next : Shared → Local → Event → Option (Shared × Local)}
  {start : Config Tid Shared Local → Prop} {guard : Config Tid Shared Local → Tid × Event → Prop}
  {inv : Shared → Prop} {own : Shared → Local → Prop} {pair : Local → Local → Prop}
  {c c' : Config Tid Shared Local}

/-- A step of one thread keeps the invariant when it keeps the shared part, settles its own part, and
leaves intact that of every other thread and the parts between it and them. -/
theorem Holds.step {event : Tid × Event} (holds : Holds inv own pair c)
    (symm : ∀ l m, pair l m → pair m l)
    (kept : ∀ shared thread, next c.shared (c.threads event.1) event.2 = some (shared, thread) →
      inv shared ∧ own shared thread ∧
        ∀ t, t ≠ event.1 → own shared (c.threads t) ∧ pair thread (c.threads t))
    (step : Step next c event c') : Holds inv own pair c' := by
  obtain ⟨shared, thread, taken, rfl⟩ := step
  obtain ⟨after, self, others⟩ := kept shared thread taken
  refine ⟨after, fun t => ?_, fun t t' distinct => ?_⟩
  · rcases eq_or_ne t event.1 with rfl | ne
    · simpa using self
    · simpa [ne] using (others t ne).1
  · rcases eq_or_ne t event.1 with rfl | ne
    · simpa [distinct.symm] using (others t' distinct.symm).2
    · rcases eq_or_ne t' event.1 with rfl | ne'
      · simpa [ne] using symm _ _ (others t ne).2
      · simpa [ne, ne'] using holds.pair t t' distinct

theorem Holds.of_reached (reach : Reached next start guard c) (symm : ∀ l m, pair l m → pair m l)
    (init : ∀ c, start c → Holds inv own pair c)
    (kept : ∀ c t event shared thread, Reached next start guard c → Holds inv own pair c →
      guard c (t, event) → next c.shared (c.threads t) event = some (shared, thread) →
        inv shared ∧ own shared thread ∧
          ∀ t', t' ≠ t → own shared (c.threads t') ∧ pair thread (c.threads t')) :
    Holds inv own pair c :=
  reach.reached_invariant (Holds inv own pair) init fun c event _ before holds allowed step =>
    holds.step symm
      (fun shared thread taken => kept c event.1 event.2 shared thread before holds allowed taken) step

end Rule

/-- The step function of the whole system, refused where a guard does not hold. -/
def attempt (next : Shared → Local → Event → Option (Shared × Local))
    (guard : Config Tid Shared Local → Tid × Event → Prop) [∀ c event, Decidable (guard c event)]
    (c : Config Tid Shared Local) (event : Tid × Event) : Except Unit (Config Tid Shared Local) :=
  if guard c event then
    match next c.shared (c.threads event.1) event.2 with
    | some (shared, thread) => .ok ⟨shared, Function.update c.threads event.1 thread⟩
    | none => .error ()
  else .error ()

theorem attempt_sound {next : Shared → Local → Event → Option (Shared × Local)}
    {guard : Config Tid Shared Local → Tid × Event → Prop} [∀ c event, Decidable (guard c event)]
    {c c' : Config Tid Shared Local} {event : Tid × Event} (taken : attempt next guard c event = .ok c') :
    guard c event ∧ Step next c event c' := by
  unfold attempt at taken
  split at taken
  · next allowed =>
    rcases made : next c.shared (c.threads event.1) event.2 with _ | ⟨shared, thread⟩
    · simp [made] at taken
    · rw [made] at taken
      exact ⟨allowed, shared, thread, made, (Except.ok.inj taken).symm⟩
  · simp at taken

/-- A run that is followed to its end leads to a reached configuration. -/
theorem exists_of_events {next : Shared → Local → Event → Option (Shared × Local)}
    {start : Config Tid Shared Local → Prop} {guard : Config Tid Shared Local → Tid × Event → Prop}
    [∀ c event, Decidable (guard c event)] {c : Config Tid Shared Local} (init : start c)
    (events : List (Tid × Event)) (goal : Config Tid Shared Local → Prop) [DecidablePred goal]
    (found : (Transition.runList (attempt next guard) events c).toOption.any (fun c => goal c) = true) :
    ∃ c, Reached next start guard c ∧ goal c :=
  Transition.Reaches.exists_of_runList (.start init) events (fun _ _ _ _ taken => attempt_sound taken) goal
    found

end Interleaving
