import Mathlib.Data.List.Basic

namespace Holding

/-- What a client asks of a lock that has at most one holder. -/
inductive Request (α : Type)
  | acquire (client : α)
  | release (client : α)
  | neither

variable {α : Type} [DecidableEq α]

/-- Who holds the lock after a request that was granted or not. -/
def after (holder : Option α) (event : Request α × Bool) : Option α :=
  match event.1 with
  | .acquire client => if event.2 then some client else holder
  | .release client => if holder = some client then none else holder
  | .neither => holder

/-- The lock goes to whoever asks while it is free and to no one else while it is held. -/
def Right (holder : Option α) (event : Request α × Bool) : Prop :=
  match event.1 with
  | .acquire client => (holder = none → event.2 = true) ∧
    ∀ other, holder = some other → other ≠ client → event.2 = false
  | .release _ => True
  | .neither => True

/-- A sequence of requests answered by a lock with one holder. -/
def OneHolder : Option α → List (Request α × Bool) → Prop
  | _, [] => True
  | holder, event :: events => Right holder event ∧ OneHolder (after holder event) events

omit [DecidableEq α] in
/-- What the clients see: between the moment a client gets the lock and its release every other request
is refused, and the first request behind the release is granted. -/
structure Exclusive (events : List (Request α × Bool)) : Prop where
  excludes : ∀ before middle later a b granted,
    events = before ++ (.acquire a, true) :: (middle ++ (.acquire b, granted) :: later) →
    (∀ event ∈ middle, event.1 ≠ .release a) → a ≠ b → granted = false
  frees : ∀ before middle between later a b done granted,
    events = before ++ (.acquire a, true) ::
      (middle ++ (.release a, done) :: (between ++ (.acquire b, granted) :: later)) →
    (∀ event ∈ middle, event.1 ≠ .release a) → (∀ event ∈ between, ∀ c, event.1 ≠ .acquire c) →
    granted = true

variable {holder : Option α} {a : α} {front events : List (Request α × Bool)}

theorem OneHolder.split (one : OneHolder holder (front ++ events)) :
    OneHolder (front.foldl after holder) events := by
  induction front generalizing holder with
  | nil => exact one
  | cons event front ih => exact ih one.2

/-- A client keeps the lock until it releases it. -/
theorem OneHolder.kept (one : OneHolder (some a) front)
    (keeps : ∀ event ∈ front, event.1 ≠ .release a) : front.foldl after (some a) = some a := by
  induction front with
  | nil => rfl
  | cons event front ih =>
    obtain ⟨right, one⟩ := one
    have stays : after (some a) event = some a := by
      obtain ⟨request, granted⟩ := event
      cases request with
      | acquire b =>
        by_cases own : a = b
        · simp [after, own]
        · have refused : granted = false := right.2 a rfl own
          simp [after, refused]
      | release b =>
        have other : a ≠ b := fun same => keeps _ List.mem_cons_self (congrArg Request.release same.symm)
        simp [after, other]
      | neither => rfl
    rw [stays] at one
    rw [List.foldl_cons, stays]
    exact ih one fun event member => keeps event (List.mem_cons_of_mem _ member)

theorem foldl_after_none (idle : ∀ event ∈ front, ∀ c, event.1 ≠ .acquire c) :
    front.foldl after (none : Option α) = none := by
  induction front with
  | nil => rfl
  | cons event front ih =>
    have stays : after (none : Option α) event = none := by
      obtain ⟨request, granted⟩ := event
      cases request with
      | acquire c => exact absurd rfl (idle _ List.mem_cons_self c)
      | release c => rfl
      | neither => rfl
    rw [List.foldl_cons, stays]
    exact ih fun event member => idle event (List.mem_cons_of_mem _ member)

theorem OneHolder.left (one : OneHolder holder (front ++ events)) : OneHolder holder front := by
  induction front generalizing holder with
  | nil => trivial
  | cons event front ih => exact ⟨one.1, ih one.2⟩

/-- A lock with one holder is exclusive. -/
theorem OneHolder.alone (one : OneHolder holder events) : Exclusive events where
  excludes := by
    intro before middle later a b granted same keeps other
    subst same
    have got := one.split.2
    have held := got.split
    rw [show after (before.foldl after holder) (.acquire a, true) = some a from rfl] at got held
    rw [got.left.kept keeps] at held
    exact held.1.2 a rfl other
  frees := by
    intro before middle between later a b done granted same keeps idle
    subst same
    have got := one.split.2
    have held := got.split
    rw [show after (before.foldl after holder) (.acquire a, true) = some a from rfl] at got held
    rw [got.left.kept keeps] at held
    have free := held.2.split
    rw [show after (some a) (.release a, done) = none from if_pos rfl, foldl_after_none idle] at free
    exact free.1.1 rfl

end Holding
