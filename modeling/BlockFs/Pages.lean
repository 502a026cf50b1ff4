import BlockFs.Lib.Interleaving
import BlockFs.State
import Mathlib.Data.Fintype.Basic

/-!
Concurrent metadata writes. A file or directory slot is changed in memory, its checksum is refreshed,
and the page it lies in is written with whatever the other slots of the page hold at that moment. A
page write takes its image of the memory in one step and lands it on the device in a later one.
Contents are stamps: every change of a slot gives it a stamp that is larger than all before it.
-/

namespace BlockFs
namespace Pages

inductive Handle where
  | fileHandle
  | dirHandle
  deriving DecidableEq

/-- A slot of the file table or of the directory table. -/
inductive Slot where
  | file (fh : Nat)
  | dir (dh : Nat)
  deriving DecidableEq

/-- The handle whose mutex guards the table. -/
def Slot.handle : Slot → Handle
  | .file _ => .fileHandle
  | .dir _ => .dirHandle

/-- The first slot of the page of a slot, `PageAlignIndex` of its handle. -/
def Slot.page : Slot → Slot
  | .file fh => .file (pageAlignIndex filesPerPage fh)
  | .dir dh => .dir (pageAlignIndex dirsPerPage dh)

structure SlotImage where
  contents : Nat
  crc : Nat

/-- What an operation does to slots and handle mutexes, one step of a thread each; `write` takes
two. Steps that concern no slot are left out. -/
inductive Action where
  | lock (h : Handle)
  | unlock (h : Handle)
  | alter (x : Slot)
  | refresh (x : Slot)
  | write (x : Slot)
  | mayFail
  | succeed (xs : List Slot)
  deriving DecidableEq

/-- The operations, with the slots they work on. -/
inductive Op where
  | createFile (fh : Nat)
  | extendFile (fh : Nat)
  | shrinkFile (oldFh newFh : Nat)
  | unlink (fh : Nat)
  | rename (fh : Nat)
  | createDirectory (dh : Nat)
  | deleteDirectory (dh : Nat)
  | renameDirectory (dh : Nat)
  deriving DecidableEq

/-- The steps of an operation. `ShrinkFile` changes and writes the child slot and the old one with
no handle mutex held, but for `NewFreeFileMeta`, `RemoveParentFile` and the last update.
`RenameDirectory` reports what it has done as a failure. -/
def Op.actions : Op → List Action
  | .createFile fh =>
    [.mayFail, .lock .fileHandle, .alter (.file fh), .unlock .fileHandle,
      .lock .fileHandle, .write (.file fh), .unlock .fileHandle, .succeed [.file fh]]
  | .extendFile fh =>
    [.mayFail, .lock .fileHandle, .alter (.file fh), .write (.file fh), .unlock .fileHandle,
      .succeed [.file fh]]
  | .shrinkFile oldFh newFh =>
    [.mayFail, .lock .fileHandle, .alter (.file newFh), .unlock .fileHandle,
      .alter (.file newFh), .mayFail, .alter (.file oldFh), .mayFail, .alter (.file newFh),
      .write (.file newFh), .write (.file oldFh),
      .lock .fileHandle, .alter (.file oldFh), .write (.file oldFh), .unlock .fileHandle,
      .lock .fileHandle, .alter (.file newFh), .write (.file newFh), .unlock .fileHandle,
      .succeed [.file oldFh, .file newFh]]
  | .unlink fh =>
    [.mayFail, .lock .fileHandle, .alter (.file fh), .write (.file fh), .unlock .fileHandle, .mayFail,
      .succeed [.file fh]]
  | .rename fh =>
    [.mayFail, .lock .fileHandle, .mayFail, .alter (.file fh), .refresh (.file fh), .mayFail,
      .write (.file fh), .unlock .fileHandle, .succeed [.file fh]]
  | .createDirectory dh =>
    [.mayFail, .lock .dirHandle, .alter (.dir dh), .unlock .dirHandle,
      .lock .dirHandle, .write (.dir dh), .unlock .dirHandle, .mayFail, .succeed [.dir dh]]
  | .deleteDirectory dh =>
    [.mayFail, .lock .dirHandle, .alter (.dir dh), .refresh (.dir dh), .write (.dir dh),
      .unlock .dirHandle, .mayFail, .succeed [.dir dh]]
  | .renameDirectory dh =>
    [.mayFail, .lock .dirHandle, .mayFail, .alter (.dir dh), .write (.dir dh), .unlock .dirHandle,
      .succeed []]

/-- The mutex that is held before the given steps: the one they release first. -/
def holding : List Action → Option Handle
  | [] => none
  | .unlock h :: _ => some h
  | .lock _ :: _ => none
  | _ :: rest => holding rest

/-- What an early return still does: it releases the mutex that is held. -/
def bail (actions : List Action) : List Action := ((holding actions).map Action.unlock).toList

/-- Memory and device, the number of changes made so far, the handle mutexes, the page images that
were sent to the device, the slots that failed operations left changed but not refreshed, and what
operations that returned success have written. -/
structure Shared where
  memory : Slot → SlotImage
  device : Slot → SlotImage
  clock : Nat
  locked : Handle → Bool
  sent : List (Slot × (Slot → SlotImage))
  abandoned : List Slot
  reported : List (Slot × Nat)

/-- A thread inside an operation: the steps left, the image of a page write on its way, the stamps
the operation has given, and the slots it has changed and not refreshed since. -/
structure Local where
  todo : List Action
  image : Option (Slot → SlotImage)
  stamps : Slot → Nat
  dirty : List Slot

inductive Event where
  | start (op : Op)
  | go
  | fail
  deriving DecidableEq

section Steps
variable (crc : Nat → Nat)

def SlotImage.refreshed (m : SlotImage) : SlotImage := { m with crc := crc m.contents }

def SlotImage.Intact (m : SlotImage) : Prop := m.crc = crc m.contents

/-- The steps of a thread. -/
def next (s : Shared) (l : Local) : Event → Option (Shared × Local)
  | .start op =>
    if l.todo = [] then some (s, { l with todo := op.actions, stamps := fun _ => 0 }) else none
  | .fail =>
    match l.todo with
    | .mayFail :: rest =>
      some ({ s with abandoned := l.dirty ++ s.abandoned },
        { l with todo := bail rest, stamps := fun _ => 0, dirty := [] })
    | _ => none
  | .go =>
    match l.todo with
    | [] => none
    | .mayFail :: rest => some (s, { l with todo := rest })
    | .lock h :: rest =>
      if s.locked h then none
      else some ({ s with locked := Function.update s.locked h true }, { l with todo := rest })
    | .unlock h :: rest =>
      some ({ s with locked := Function.update s.locked h false }, { l with todo := rest })
    | .alter x :: rest =>
      some ({ s with
          memory := Function.update s.memory x { s.memory x with contents := s.clock + 1 }
          clock := s.clock + 1 },
        { l with
          todo := rest
          stamps := Function.update l.stamps x (s.clock + 1)
          dirty := x :: l.dirty })
    | .refresh x :: rest =>
      some ({ s with memory := Function.update s.memory x ((s.memory x).refreshed crc) },
        { l with
          todo := rest
          dirty := l.dirty.filter (· ≠ x) })
    | .write x :: rest =>
      match l.image with
      | none =>
        let memory := Function.update s.memory x ((s.memory x).refreshed crc)
        some ({ s with
            memory := memory
            sent := (x.page, memory) :: s.sent },
          { l with
            image := some memory
            dirty := l.dirty.filter (· ≠ x) })
      | some image =>
        some ({ s with device := fun y => if y.page = x.page then image y else s.device y },
          { l with
            todo := rest
            image := none })
    | .succeed xs :: rest =>
      some ({ s with reported := xs.map (fun x => (x, l.stamps x)) ++ s.reported },
        { l with todo := rest })

/-- The steps of a thread, one case each. -/
inductive Move (s : Shared) (l : Local) : Event → Shared → Local → Prop
  | start {op} (idle : l.todo = []) :
    Move s l (.start op) s { l with todo := op.actions, stamps := fun _ => 0 }
  | fail {rest} (todo : l.todo = .mayFail :: rest) :
    Move s l .fail { s with abandoned := l.dirty ++ s.abandoned }
      { l with todo := bail rest, stamps := fun _ => 0, dirty := [] }
  | pass {rest} (todo : l.todo = .mayFail :: rest) : Move s l .go s { l with todo := rest }
  | lock {h rest} (todo : l.todo = .lock h :: rest) (free : s.locked h = false) :
    Move s l .go { s with locked := Function.update s.locked h true } { l with todo := rest }
  | unlock {h rest} (todo : l.todo = .unlock h :: rest) :
    Move s l .go { s with locked := Function.update s.locked h false } { l with todo := rest }
  | alter {x rest} (todo : l.todo = .alter x :: rest) :
    Move s l .go
      { s with
        memory := Function.update s.memory x { s.memory x with contents := s.clock + 1 }
        clock := s.clock + 1 }
      { l with
        todo := rest
        stamps := Function.update l.stamps x (s.clock + 1)
        dirty := x :: l.dirty }
  | refresh {x rest} (todo : l.todo = .refresh x :: rest) :
    Move s l .go { s with memory := Function.update s.memory x ((s.memory x).refreshed crc) }
      { l with
        todo := rest
        dirty := l.dirty.filter (· ≠ x) }
  | send {x rest memory} (todo : l.todo = .write x :: rest) (ready : l.image = none)
    (image : memory = Function.update s.memory x ((s.memory x).refreshed crc)) :
    Move s l .go
      { s with
        memory := memory
        sent := (x.page, memory) :: s.sent }
      { l with
        image := some memory
        dirty := l.dirty.filter (· ≠ x) }
  | land {x rest image} (todo : l.todo = .write x :: rest) (flight : l.image = some image) :
    Move s l .go { s with device := fun y => if y.page = x.page then image y else s.device y }
      { l with
        todo := rest
        image := none }
  | succeed {xs rest} (todo : l.todo = .succeed xs :: rest) :
    Move s l .go { s with reported := xs.map (fun x => (x, l.stamps x)) ++ s.reported }
      { l with todo := rest }

variable {crc} in
theorem move_of_next {s s' : Shared} {l l' : Local} {event : Event}
    (taken : next crc s l event = some (s', l')) : Move crc s l event s' l' := by
  cases event with
  | start op =>
    rw [next] at taken
    split at taken
    · next idle =>
      obtain ⟨rfl, rfl⟩ := Prod.mk.inj (Option.some.inj taken)
      exact .start idle
    · simp at taken
  | fail =>
    rw [next] at taken
    split at taken
    · next rest todo =>
      obtain ⟨rfl, rfl⟩ := Prod.mk.inj (Option.some.inj taken)
      exact .fail todo
    · simp at taken
  | go =>
    rw [next] at taken
    split at taken
    · simp at taken
    · next rest todo =>
      obtain ⟨rfl, rfl⟩ := Prod.mk.inj (Option.some.inj taken)
      exact .pass todo
    · next h rest todo =>
      split at taken
      · simp at taken
      · next free =>
        obtain ⟨rfl, rfl⟩ := Prod.mk.inj (Option.some.inj taken)
        exact .lock todo (by simpa using free)
    · next h rest todo =>
      obtain ⟨rfl, rfl⟩ := Prod.mk.inj (Option.some.inj taken)
      exact .unlock todo
    · next x rest todo =>
      obtain ⟨rfl, rfl⟩ := Prod.mk.inj (Option.some.inj taken)
      exact .alter todo
    · next x rest todo =>
      obtain ⟨rfl, rfl⟩ := Prod.mk.inj (Option.some.inj taken)
      exact .refresh todo
    · next x rest todo =>
      split at taken
      · next ready =>
        obtain ⟨rfl, rfl⟩ := Prod.mk.inj (Option.some.inj taken)
        exact .send todo ready rfl
      · next image flight =>
        obtain ⟨rfl, rfl⟩ := Prod.mk.inj (Option.some.inj taken)
        exact .land todo flight
    · next xs rest todo =>
      obtain ⟨rfl, rfl⟩ := Prod.mk.inj (Option.some.inj taken)
      exact .succeed todo

end Steps

/-- Every mutex that is acquired is released before another one is. -/
def Nested : List Action → Prop
  | [] => True
  | .lock h :: rest => holding rest = some h ∧ Nested rest
  | .unlock _ :: rest => holding rest = none ∧ Nested rest
  | _ :: rest => Nested rest

/-- A changed slot is written later on, unless the operation fails, and success comes last. -/
def Followed : List Action → Prop
  | [] => True
  | .alter x :: rest => .write x ∈ rest ∧ Followed rest
  | .succeed _ :: rest => rest = []
  | _ :: rest => Followed rest

section Programs
variable (op : Op) (actions : List Action)

theorem Op.nested : Nested op.actions := by
  cases op <;> simp [Op.actions, Nested, holding]

theorem Op.followed : Followed op.actions := by
  cases op <;> simp [Op.actions, Followed]

theorem Op.holding : holding op.actions = none := by
  cases op <;> rfl

theorem holding_bail : holding (bail actions) = holding actions := by
  rw [bail]
  cases Pages.holding actions <;> rfl

theorem nested_bail : Nested (bail actions) := by
  rw [bail]
  cases Pages.holding actions <;> simp [Nested, Pages.holding]

theorem followed_bail : Followed (bail actions) := by
  rw [bail]
  cases Pages.holding actions <;> simp [Followed]

end Programs

variable {crc : Nat → Nat} {Tid : Type*}

/-- A system that no thread has entered: every slot on the device is as it is in memory, with its
checksum, and no mutex is taken. -/
structure Start (crc : Nat → Nat) (c : Interleaving.Config Tid Shared Local) : Prop where
  device : c.shared.device = c.shared.memory
  intact : ∀ x, (c.shared.memory x).Intact crc
  clock : ∀ x, (c.shared.memory x).contents ≤ c.shared.clock
  unlocked : ∀ h, c.shared.locked h = false
  sent : c.shared.sent = []
  abandoned : c.shared.abandoned = []
  reported : c.shared.reported = []
  idle : ∀ t, c.threads t = { todo := [], image := none, stamps := fun _ => 0, dirty := [] }

abbrev Config (Tid : Type*) := Interleaving.Config Tid Shared Local

abbrev Reached [DecidableEq Tid] (crc : Nat → Nat) (guard : Config Tid → Tid × Event → Prop) :
    Config Tid → Prop :=
  Interleaving.Reached (next crc) (Start crc) guard

section Mutexes
variable [DecidableEq Tid] {guard : Config Tid → Tid × Event → Prop} {c : Config Tid}

/-- A thread's remaining steps are nested, and the mutex it holds is taken. -/
def Holder (s : Shared) (l : Local) : Prop :=
  Nested l.todo ∧ ∀ h, holding l.todo = some h → s.locked h = true

def Exclusive (l m : Local) : Prop := ∀ h, holding l.todo = some h → holding m.todo ≠ some h

/-- A step that neither acquires nor releases: the mutex held stays the same. -/
theorem Holder.rest {s s' : Shared} {l : Local} {a : Action} {rest : List Action}
    (holder : Holder s l) (todo : l.todo = a :: rest) (locked : s'.locked = s.locked)
    (neither : ∀ h, a ≠ .lock h ∧ a ≠ .unlock h) :
    (Nested rest ∧ ∀ h, holding rest = some h → s'.locked h = true) ∧ holding rest = holding l.todo := by
  obtain ⟨nested, taken⟩ := holder
  rw [todo] at nested taken ⊢
  have same : Nested (a :: rest) = Nested rest ∧ holding (a :: rest) = holding rest := by
    cases a with
    | lock h => exact absurd rfl (neither h).1
    | unlock h => exact absurd rfl (neither h).2
    | _ => exact ⟨rfl, rfl⟩
  rw [same.1] at nested
  rw [same.2] at taken ⊢
  exact ⟨⟨nested, fun h holds => locked ▸ taken h holds⟩, rfl⟩

theorem Holds.exclusive (reach : Reached crc guard c) :
    Interleaving.Holds (fun _ => True) Holder Exclusive c := by
  refine Interleaving.Holds.of_reached reach ?_ ?_ ?_
  · intro l m apart h first second
    exact apart h second first
  · intro c start
    refine ⟨trivial, fun t => ?_, fun t t' _ => ?_⟩
    · rw [start.idle t]
      exact ⟨trivial, fun h holds => by simp [holding] at holds⟩
    · rw [start.idle t]
      intro h holds
      simp [holding] at holds
  · intro c t event s l _ holds _ taken
    have self := holds.own t
    have others (t' : Tid) (ne : t' ≠ t) : Exclusive (c.threads t) (c.threads t') := holds.pair t t' ne.symm
    -- A step that leaves the mutexes and what the thread holds alone settles all parts.
    have keep (locked : s.locked = c.shared.locked) (nested : Nested l.todo)
        (same : holding l.todo = holding (c.threads t).todo) : True ∧ Holder s l ∧
          ∀ t', t' ≠ t → Holder s (c.threads t') ∧ Exclusive l (c.threads t') := by
      refine ⟨trivial, ⟨nested, fun h held => ?_⟩, fun t' ne => ⟨⟨(holds.own t').1, fun h held => ?_⟩, ?_⟩⟩
      · rw [locked]
        exact self.2 h (same ▸ held)
      · rw [locked]
        exact (holds.own t').2 h held
      · intro h held
        exact others t' ne h (same ▸ held)
    cases move_of_next taken with
    | @start op idle =>
      refine keep rfl op.nested ?_
      rw [op.holding, idle]
      rfl
    | @fail rest todo =>
      refine keep rfl (nested_bail rest) ?_
      rw [holding_bail, todo]
      rfl
    | @lock h rest todo free =>
      have nested := self.1
      rw [todo] at nested
      refine ⟨trivial, ⟨nested.2, fun h' held => ?_⟩, fun t' ne => ⟨⟨(holds.own t').1, fun h' held => ?_⟩, ?_⟩⟩
      · obtain rfl : h = h' := by simpa [nested.1] using held
        simp
      · have taken' := (holds.own t').2 h' held
        rcases eq_or_ne h' h with rfl | other
        · simp
        · simpa [other] using taken'
      · intro h' held held'
        obtain rfl : h = h' := by simpa [nested.1] using held
        have taken' := (holds.own t').2 h held'
        rw [free] at taken'
        simp at taken'
    | @unlock h rest todo =>
      have nested := self.1
      rw [todo] at nested
      have mine : holding (c.threads t).todo = some h := by rw [todo]; rfl
      refine ⟨trivial, ⟨nested.2, fun h' held => ?_⟩, fun t' ne => ⟨⟨(holds.own t').1, fun h' held => ?_⟩, ?_⟩⟩
      · rw [nested.1] at held
        simp at held
      · have other : h' ≠ h := by
          rintro rfl
          exact others t' ne h' mine held
        simpa [other] using (holds.own t').2 h' held
      · intro h' held
        rw [nested.1] at held
        simp at held
    | send todo _ _ => exact keep rfl self.1 rfl
    | pass todo | alter todo | refresh todo | land todo | succeed todo =>
      obtain ⟨⟨nested, _⟩, same⟩ := Holder.rest self todo (Eq.refl c.shared.locked) (by simp)
      exact keep rfl nested same

end Mutexes

end Pages
end BlockFs
