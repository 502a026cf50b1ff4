import BlockFs.Pages

/-!
What the order of page writes means for the device: no update is lost where page writes that are not
both under the handle's mutex keep apart, and every page that is sent is intact where no other slot
of it is half updated.
-/

namespace BlockFs
namespace Pages

/-- The slot whose page a thread is writing. -/
def writing (l : Local) : Option Slot :=
  match l.todo with
  | .write x :: _ => some x
  | _ => none

/-- A page write about to take its image. -/
def starting (l : Local) : Option Slot := if l.image.isNone then writing l else none

/-- A page write between its image and its landing. -/
def inFlight (l : Local) : Option Slot := if l.image.isSome then writing l else none

variable {crc : Nat → Nat} {Tid : Type*} [DecidableEq Tid] {c : Config Tid}

section Landing

/-- No page write takes its image while another thread has a write of the same page in flight,
unless both hold the mutex of the handle. -/
def NoOverlap (c : Config Tid) (event : Tid × Event) : Prop :=
  event.2 = .go → ∀ x ∈ starting (c.threads event.1), ∀ t, t ≠ event.1 →
    ∀ y ∈ inFlight (c.threads t), y.page = x.page →
      holding (c.threads event.1).todo = some x.handle ∧ holding (c.threads t).todo = some x.handle

/-- What an operation that returned success wrote, or a later update of the same slot, is on the
device, and no image of its page that is still to land is older. -/
def Settled (c : Config Tid) : Prop :=
  ∀ x v, (x, v) ∈ c.shared.reported → v ≤ (c.shared.device x).contents ∧
    ∀ t, ∀ y ∈ inFlight (c.threads t), y.page = x.page →
      ∀ image ∈ (c.threads t).image, v ≤ (image x).contents

/-- The device lags behind the memory and has what was reported. -/
structure Current (s : Shared) : Prop where
  clock : ∀ x, (s.memory x).contents ≤ s.clock
  device : ∀ x, (s.device x).contents ≤ (s.memory x).contents
  reported : ∀ x v, (x, v) ∈ s.reported → v ≤ (s.device x).contents

/-- A thread's page image lies between device and memory, and what its operation has changed is on
the device or still to be written. -/
structure Tracks (s : Shared) (l : Local) : Prop where
  memory : ∀ x, l.stamps x ≤ (s.memory x).contents
  flight : ∀ image, l.image = some image → ∃ x rest, l.todo = .write x :: rest ∧
    ∀ y, y.page = x.page → (s.device y).contents ≤ (image y).contents ∧
      (image y).contents ≤ (s.memory y).contents ∧ l.stamps y ≤ (image y).contents
  pending : ∀ x, l.stamps x ≤ (s.device x).contents ∨ .write x ∈ l.todo
  followed : Followed l.todo

def PagesApart (l m : Local) : Prop := ∀ x ∈ inFlight l, ∀ y ∈ inFlight m, x.page ≠ y.page

variable {s s' : Shared} {l : Local}

theorem inFlight_eq_some {x : Slot} :
    inFlight l = some x ↔ l.image.isSome = true ∧ ∃ rest, l.todo = .write x :: rest := by
  unfold inFlight writing
  constructor
  · intro flies
    split at flies
    · next some_ =>
      refine ⟨some_, ?_⟩
      split at flies
      · next y rest todo =>
        obtain rfl := Option.some.inj flies
        exact ⟨rest, todo⟩
      · simp at flies
    · simp at flies
  · rintro ⟨some_, rest, todo⟩
    rw [if_pos some_, todo]

theorem inFlight_eq_none (landed : l.image = none) : inFlight l = none := by simp [inFlight, landed]

/-- Other threads' steps only make contents newer, and leave the pages in flight alone. -/
theorem Tracks.mono (tracks : Tracks s l)
    (memory : ∀ x, (s.memory x).contents ≤ (s'.memory x).contents)
    (device : ∀ x, (s.device x).contents ≤ (s'.device x).contents)
    (still : ∀ x ∈ inFlight l, ∀ y, y.page = x.page → s'.device y = s.device y) : Tracks s' l where
  memory x := (tracks.memory x).trans (memory x)
  flight image flies := by
    obtain ⟨x, rest, todo, between⟩ := tracks.flight image flies
    refine ⟨x, rest, todo, fun y same => ?_⟩
    obtain ⟨low, high, mine⟩ := between y same
    have flying : inFlight l = some x := inFlight_eq_some.2 ⟨by simp [flies], rest, todo⟩
    rw [still x flying y same]
    exact ⟨low, high.trans (memory y), mine⟩
  pending x := (tracks.pending x).imp_left fun old => old.trans (device x)
  followed := tracks.followed

/-- A step that writes no page and changes no slot. -/
theorem Tracks.pass {a : Action} {rest : List Action} (tracks : Tracks s l) (todo : l.todo = a :: rest)
    (other : ∀ x, a ≠ .write x ∧ a ≠ .alter x) : Tracks s { l with todo := rest } where
  memory := tracks.memory
  flight image flies := by
    obtain ⟨x, rest', todo', _⟩ := tracks.flight image flies
    rw [todo'] at todo
    exact absurd (List.cons.inj todo).1.symm (other x).1
  pending x := by
    refine (tracks.pending x).imp_right fun member => ?_
    rw [todo] at member
    exact (List.mem_cons.1 member).resolve_left (other x).1.symm
  followed := by
    have followed := tracks.followed
    rw [todo] at followed
    cases a with
    | alter x => exact absurd rfl (other x).2
    | succeed xs =>
      obtain rfl : rest = [] := followed
      trivial
    | _ => exact followed

theorem Tracks.landed {a : Action} {rest : List Action} (tracks : Tracks s l) (todo : l.todo = a :: rest)
    (other : ∀ x, a ≠ .write x) : l.image = none := by
  cases flies : l.image with
  | none => rfl
  | some image =>
    obtain ⟨x, rest', todo', _⟩ := tracks.flight image flies
    rw [todo'] at todo
    exact absurd (List.cons.inj todo).1.symm (other x)

theorem Tracks.landed_of_idle (tracks : Tracks s l) (idle : l.todo = []) : l.image = none := by
  cases flies : l.image with
  | none => rfl
  | some image =>
    obtain ⟨x, rest, todo, _⟩ := tracks.flight image flies
    simp [idle] at todo

/-- A thread that has changed nothing yet. -/
theorem Tracks.fresh {actions : List Action} {dirty : List Slot} (landed : l.image = none)
    (followed : Followed actions) :
    Tracks s { l with todo := actions, stamps := fun _ => 0, dirty := dirty } where
  memory x := Nat.zero_le _
  flight image flies := by simp [landed] at flies
  pending x := .inl (Nat.zero_le _)
  followed := followed

theorem contents_refreshed (crc : Nat → Nat) (s : Shared) (x y : Slot) :
    (Function.update s.memory x ((s.memory x).refreshed crc) y).contents = (s.memory y).contents := by
  rcases eq_or_ne y x with rfl | ne
  · simp [SlotImage.refreshed]
  · simp [ne]

theorem starting_eq_some {x : Slot} :
    starting l = some x ↔ l.image = none ∧ ∃ rest, l.todo = .write x :: rest := by
  unfold starting writing
  constructor
  · intro starts
    split at starts
    · next none_ =>
      refine ⟨by simpa using none_, ?_⟩
      split at starts
      · next y rest todo =>
        obtain rfl := Option.some.inj starts
        exact ⟨rest, todo⟩
      · simp at starts
    · simp at starts
  · rintro ⟨none_, rest, todo⟩
    simp [none_, todo]

theorem Reached.holds (reach : Reached crc NoOverlap c) :
    Interleaving.Holds Current Tracks PagesApart c := by
  refine Interleaving.Holds.of_reached reach ?_ ?_ ?_
  · intro l m apart x flies y flies' same
    exact apart y flies' x flies same.symm
  · intro c start
    refine ⟨⟨start.clock, fun x => by rw [start.device], fun x v member => ?_⟩, fun t => ?_, fun t t' _ => ?_⟩
    · simp [start.reported] at member
    · rw [start.idle t]
      exact ⟨fun x => Nat.zero_le _, fun image flies => by simp at flies, fun x => .inl (Nat.zero_le _), trivial⟩
    · rw [start.idle t]
      intro x flies
      simp [inFlight] at flies
  · intro c t event s l before holds apart taken
    have exclusive := (Holds.exclusive before).pair
    have inv := holds.inv
    have self := holds.own t
    -- A step of a thread with no page in flight before or after it.
    have settle (memory : ∀ x, (c.shared.memory x).contents ≤ (s.memory x).contents)
        (device : s.device = c.shared.device) (landed : l.image = none) (current : Current s)
        (tracks : Tracks s l) : Current s ∧ Tracks s l ∧
          ∀ t', t' ≠ t → Tracks s (c.threads t') ∧ PagesApart l (c.threads t') := by
      refine ⟨current, tracks, fun t' _ => ⟨?_, ?_⟩⟩
      · exact (holds.own t').mono memory (fun x => by rw [device]) fun x _ y _ => by rw [device]
      · intro x flies
        simp [inFlight_eq_none landed] at flies
    cases move_of_next taken with
    | @start op idle =>
      have landed := self.landed_of_idle idle
      exact settle (fun _ => le_rfl) rfl landed inv (.fresh landed op.followed)
    | @fail rest todo =>
      have landed := self.landed todo (by simp)
      exact settle (fun _ => le_rfl) rfl landed ⟨inv.clock, inv.device, inv.reported⟩
        (.fresh landed (followed_bail rest))
    | pass todo =>
      exact settle (fun _ => le_rfl) rfl (self.landed todo (by simp)) inv (self.pass todo (by simp))
    | lock todo _ | unlock todo =>
      have passed := self.pass todo (by simp)
      exact settle (fun _ => le_rfl) rfl (self.landed todo (by simp)) ⟨inv.clock, inv.device, inv.reported⟩
        ⟨passed.memory, passed.flight, passed.pending, passed.followed⟩
    | @refresh x rest todo =>
      have same (y : Slot) := contents_refreshed crc c.shared x y
      have passed := self.pass todo (by simp)
      refine settle (fun y => (same y).ge) rfl (self.landed todo (by simp)) ?_ ?_
      · exact ⟨fun y => (same y).trans_le (inv.clock y), fun y => (inv.device y).trans (same y).ge, inv.reported⟩
      · refine ⟨fun y => (passed.memory y).trans (same y).ge, fun image flies => ?_, passed.pending, passed.followed⟩
        rw [self.landed todo (by simp)] at flies
        simp at flies
    | @succeed xs rest todo =>
      have followed := self.followed
      rw [todo] at followed
      obtain rfl : rest = [] := followed
      have passed := self.pass todo (by simp)
      refine settle (fun _ => le_rfl) rfl (self.landed todo (by simp)) ⟨inv.clock, inv.device, ?_⟩
        ⟨passed.memory, passed.flight, passed.pending, passed.followed⟩
      intro x v member
      rcases List.mem_append.1 member with new | old
      · obtain ⟨y, _, same⟩ := List.mem_map.1 new
        obtain ⟨rfl, rfl⟩ := Prod.mk.inj same
        exact (passed.pending y).resolve_right (by simp)
      · exact inv.reported x v old
    | @alter x rest todo =>
      have landed := self.landed todo (by simp)
      have followed := self.followed
      rw [todo] at followed
      have newer (y : Slot) : (c.shared.memory y).contents ≤ (Function.update c.shared.memory x
          { c.shared.memory x with contents := c.shared.clock + 1 } y).contents := by
        have old := inv.clock y
        rcases eq_or_ne y x with rfl | ne
        · simp only [Function.update_self]
          omega
        · simp [ne]
      refine settle newer rfl landed ⟨fun y => ?_, fun y => (inv.device y).trans (newer y), inv.reported⟩
        ⟨fun y => ?_, fun image flies => by simp [landed] at flies, fun y => ?_, followed.2⟩
      · have old := inv.clock y
        rcases eq_or_ne y x with rfl | ne
        · simp
        · simp only [ne, ne_eq, not_false_eq_true, Function.update_of_ne]
          omega
      · rcases eq_or_ne y x with rfl | ne
        · simp
        · simpa [ne] using self.memory y
      · rcases eq_or_ne y x with rfl | ne
        · exact .inr followed.1
        · have before := self.pending y
          rw [todo] at before
          simpa [ne] using before
    | @send x rest memory todo ready image =>
      have same (y : Slot) : (memory y).contents = (c.shared.memory y).contents :=
        image ▸ contents_refreshed crc c.shared x y
      refine ⟨⟨fun y => ?_, fun y => ?_, inv.reported⟩, ⟨fun y => ?_, fun image' flies => ?_, self.pending,
        self.followed⟩, fun t' ne => ⟨?_, ?_⟩⟩
      · exact (same y).trans_le (inv.clock y)
      · exact (inv.device y).trans (same y).ge
      · exact (self.memory y).trans (same y).ge
      · obtain rfl := Option.some.inj flies
        refine ⟨x, rest, todo, fun y _ => ⟨?_, le_rfl, ?_⟩⟩
        · exact (inv.device y).trans (same y).ge
        · exact (self.memory y).trans (same y).ge
      · exact (holds.own t').mono (fun y => (same y).ge) (fun _ => le_rfl) fun _ _ _ _ => rfl
      · -- The guard lets two writes of one page overlap only if both hold the mutex, and they cannot.
        intro y flies z flies' shared
        obtain rfl : y = x := by
          obtain ⟨_, rest', todo'⟩ := inFlight_eq_some.1 flies
          exact (Action.write.inj (List.cons.inj (todo.symm.trans todo')).1).symm
        obtain ⟨mine, yours⟩ := apart rfl y (starting_eq_some.2 ⟨ready, rest, todo⟩) t' ne z flies' shared.symm
        exact exclusive t t' ne.symm _ mine yours
    | @land x rest image todo flight =>
      obtain ⟨x', rest', todo', between⟩ := self.flight image flight
      obtain ⟨same, -⟩ := List.cons.inj (todo.symm.trans todo')
      obtain rfl := Action.write.inj same
      have newer (y : Slot) : (c.shared.device y).contents ≤
          (if y.page = x.page then image y else c.shared.device y).contents := by
        split
        · next onPage => exact (between y onPage).1
        · exact le_rfl
      have followed := self.followed
      rw [todo] at followed
      refine ⟨⟨inv.clock, fun y => ?_, fun y v member => ?_⟩, ⟨self.memory, fun image' flies => by simp at flies,
        fun y => ?_, followed⟩, fun t' ne => ⟨?_, ?_⟩⟩
      · dsimp only
        split
        · next onPage => exact (between y onPage).2.1
        · exact inv.device y
      · exact (inv.reported y v member).trans (newer y)
      · rcases self.pending y with stored | later
        · exact .inl (stored.trans (newer y))
        · rw [todo, List.mem_cons] at later
          rcases later with here | later
          · obtain rfl := Action.write.inj here
            refine .inl ?_
            simp only [if_true]
            exact (between y rfl).2.2
          · exact .inr later
      · refine (holds.own t').mono (fun _ => le_rfl) newer fun z flies y onPage => ?_
        have flying : inFlight (c.threads t) = some x := inFlight_eq_some.2 ⟨by simp [flight], rest, todo⟩
        have distinct := holds.pair t t' ne.symm x flying z flies
        exact if_neg fun same => distinct (same.symm.trans onPage)
      · intro y flies
        simp [inFlight] at flies

/-- No update is lost in a run whose page writes outside the handle's mutex overlap no other write of
the page. -/
theorem Reached.updatesSettled (reach : Reached crc NoOverlap c) : Settled c := by
  have holds := reach.holds
  intro x v member
  have stored := holds.inv.reported x v member
  refine ⟨stored, fun t y flies onPage image taken => ?_⟩
  obtain ⟨z, rest, todo, between⟩ := (holds.own t).flight image taken
  obtain ⟨_, rest', todo'⟩ := inFlight_eq_some.1 flies
  obtain rfl := Action.write.inj (List.cons.inj (todo.symm.trans todo')).1
  exact stored.trans (between x onPage.symm).1

/-- A device all of whose slots hold the same. -/
def quietConfig : Config (Fin 2) where
  shared :=
    { memory := fun _ => ⟨0, 0⟩
      device := fun _ => ⟨0, 0⟩
      clock := 0
      locked := fun _ => false
      sent := []
      abandoned := []
      reported := [] }
  threads _ := { todo := [], image := none, stamps := fun _ => 0, dirty := [] }

theorem quietConfig_start : Start (fun _ => 0) quietConfig where
  device := rfl
  intact _ := rfl
  clock _ := le_rfl
  unlocked _ := rfl
  sent := rfl
  abandoned := rfl
  reported := rfl
  idle _ := rfl

/-- One thread starts an operation and takes `steps` steps of it. -/
def enter (t : Fin 2) (op : Op) (steps : Nat) : List (Fin 2 × Event) :=
  (t, .start op) :: List.replicate steps (t, .go)

instance (c : Config (Fin 2)) (event : Fin 2 × Event) : Decidable (NoOverlap c event) :=
  inferInstanceAs (Decidable (event.2 = .go → ∀ x ∈ starting (c.threads event.1), ∀ t, t ≠ event.1 →
    ∀ y ∈ inFlight (c.threads t), y.page = x.page →
      holding (c.threads event.1).todo = some x.handle ∧ holding (c.threads t).todo = some x.handle))

/-- A file is unlinked between two page writes of the shrinking of another one in the same page. -/
theorem settled_between : ∃ c : Config (Fin 2), (.file 2, 5) ∈ c.shared.reported ∧ Settled c := by
  have found : ∃ c : Config (Fin 2), Reached (fun _ => 0) NoOverlap c ∧ (.file 2, 5) ∈ c.shared.reported :=
    Interleaving.exists_of_events quietConfig_start
      (enter 0 (.shrinkFile 0 1) 13 ++ enter 1 (.unlink 2) 8) _ (by decide +kernel)
  obtain ⟨c, reach, reported⟩ := found
  exact ⟨c, reported, reach.updatesSettled⟩

/-- The shrinking of a file takes the image of a page, another file of the page is unlinked, and the
old image lands on top. -/
theorem not_settled : ¬ ∀ c : Config (Fin 2), Reached (fun _ => 0) (fun _ _ => True) c → Settled c := by
  intro settled
  have found : ∃ c : Config (Fin 2), Reached (fun _ => 0) (fun _ _ => True) c ∧
      ∃ p ∈ c.shared.reported, (c.shared.device p.1).contents < p.2 :=
    Interleaving.exists_of_events quietConfig_start
      (enter 0 (.shrinkFile 0 1) 10 ++ enter 1 (.unlink 2) 8 ++ [(0, .go)]) _ (by decide +kernel)
  obtain ⟨c, reach, ⟨x, v⟩, reported, lost⟩ := found
  exact absurd (settled c reach x v reported).1 (Nat.not_le.2 lost)

end Landing

section Checksums

/-- No page write takes its image while another slot of the page is changed and not yet refreshed: by
the same operation, by one that gave up, or by another thread, unless both hold the mutex of the
handle. -/
def NoneHalfDone (c : Config Tid) (event : Tid × Event) : Prop :=
  event.2 = .go → ∀ x ∈ starting (c.threads event.1),
    (∀ y ∈ c.shared.abandoned ++ (c.threads event.1).dirty, y.page = x.page → y = x) ∧
      ∀ t, t ≠ event.1 → ∀ y ∈ (c.threads t).dirty, y.page = x.page → y ≠ x →
        holding (c.threads event.1).todo = some x.handle ∧ holding (c.threads t).todo = some x.handle

/-- Every page that was sent to the device has the right checksum in all its slots, and so has every
slot of the device. -/
def Loadable (crc : Nat → Nat) (c : Config Tid) : Prop :=
  (∀ p ∈ c.shared.sent, ∀ x, x.page = p.1 → (p.2 x).Intact crc) ∧ ∀ x, (c.shared.device x).Intact crc

theorem intact_refreshed (m : SlotImage) : (m.refreshed crc).Intact crc := rfl

/-- A slot with a wrong checksum was left behind by a failed operation or is being changed. -/
def Accounted (crc : Nat → Nat) (c : Config Tid) : Prop :=
  ∀ x, ¬ (c.shared.memory x).Intact crc → x ∈ c.shared.abandoned ∨ ∃ t, x ∈ (c.threads t).dirty

/-- The image of a page write in flight is intact. -/
def FlightIntact (crc : Nat → Nat) (l : Local) : Prop :=
  ∀ image ∈ l.image, ∃ x ∈ writing l, ∀ y, y.page = x.page → (image y).Intact crc

theorem FlightIntact.landed {l : Local} (flight : FlightIntact crc l) (idle : writing l = none) :
    l.image = none := by
  cases flies : l.image with
  | none => rfl
  | some image =>
    obtain ⟨x, here, _⟩ := flight image flies
    simp [idle] at here

section Move
variable {s s' : Shared} {l l' : Local} {event : Event} {x : Slot}

/-- A step accounts for every slot whose checksum it spoils, and for those it was to refresh. -/
theorem Move.accounted (move : Move crc s l event s' l') (spoilt : ¬ (s'.memory x).Intact crc) :
    x ∈ l'.dirty ∨ ¬ (s.memory x).Intact crc ∧ (x ∈ l.dirty → x ∈ s'.abandoned) := by
  -- Where the slot is left alone it stays in the list of the thread.
  have same (memory : s'.memory x = s.memory x) (dirty : x ∈ l.dirty → x ∈ l'.dirty) :
      x ∈ l'.dirty ∨ ¬ (s.memory x).Intact crc ∧ (x ∈ l.dirty → x ∈ s'.abandoned) := by
    by_cases mine : x ∈ l.dirty
    · exact .inl (dirty mine)
    · exact .inr ⟨memory ▸ spoilt, fun member => absurd member mine⟩
  cases move with
  | start _ | pass _ | lock _ _ | unlock _ | land _ _ | succeed _ => exact same rfl id
  | fail _ => exact .inr ⟨spoilt, fun member => List.mem_append_left _ member⟩
  | @alter y rest _ =>
    rcases eq_or_ne x y with rfl | ne
    · exact .inl (by simp)
    · exact same (by simp [ne]) fun member => List.mem_cons_of_mem _ member
  | @refresh y rest _ =>
    rcases eq_or_ne x y with rfl | ne
    · simp [intact_refreshed] at spoilt
    · exact same (by simp [ne]) fun member => by simpa [ne] using member
  | @send y rest memory _ _ image =>
    rcases eq_or_ne x y with rfl | ne
    · simp [image, intact_refreshed] at spoilt
    · exact same (by simp [image, ne]) fun member => by simpa [ne] using member

theorem Move.abandoned (move : Move crc s l event s' l') (gone : x ∈ s.abandoned) : x ∈ s'.abandoned := by
  cases move with
  | fail todo => exact List.mem_append_right _ gone
  | _ => exact gone

end Move

theorem Accounted.step {event : Tid × Event} {c' : Config Tid} (accounted : Accounted crc c)
    (step : Interleaving.Step (next crc) c event c') : Accounted crc c' := by
  obtain ⟨s, l, taken, rfl⟩ := step
  have move := move_of_next taken
  intro x spoilt
  rcases move.accounted spoilt with mine | ⟨before, settled⟩
  · exact .inr ⟨event.1, by simpa using mine⟩
  · rcases accounted x before with gone | ⟨t, member⟩
    · exact .inl (move.abandoned gone)
    · rcases eq_or_ne t event.1 with rfl | ne
      · exact .inl (settled member)
      · exact .inr ⟨t, by simpa [ne] using member⟩

omit [DecidableEq Tid] in
/-- The image a page write takes is intact: any other slot of the page with a wrong checksum would be
half done, and the slot itself is refreshed first. -/
theorem Accounted.image {t : Tid} {x : Slot} {rest : List Action} (accounted : Accounted crc c)
    (exclusive : ∀ t t', t ≠ t' → Exclusive (c.threads t) (c.threads t'))
    (none_ : NoneHalfDone c (t, .go)) (todo : (c.threads t).todo = .write x :: rest)
    (ready : (c.threads t).image = none) (y : Slot) (onPage : y.page = x.page) :
    (Function.update c.shared.memory x ((c.shared.memory x).refreshed crc) y).Intact crc := by
  rcases eq_or_ne y x with rfl | ne
  · rw [Function.update_self]
    exact intact_refreshed _
  · rw [Function.update_of_ne ne]
    by_contra spoilt
    obtain ⟨own, other⟩ := none_ rfl x (starting_eq_some.2 ⟨ready, rest, todo⟩)
    rcases accounted y spoilt with gone | ⟨t', member⟩
    · exact ne (own y (List.mem_append_left _ gone) onPage)
    · rcases eq_or_ne t' t with rfl | apart
      · exact ne (own y (List.mem_append_right _ member) onPage)
      · obtain ⟨mine, yours⟩ := other t' apart y member onPage ne
        exact exclusive t t' apart.symm _ mine yours

theorem Reached.accounted (reach : Reached crc NoneHalfDone c) :
    Accounted crc c ∧ Loadable crc c ∧ ∀ t, FlightIntact crc (c.threads t) := by
  refine Transition.Reaches.reached_invariant reach
    (fun c => Accounted crc c ∧ Loadable crc c ∧ ∀ t, FlightIntact crc (c.threads t)) ?_ ?_
  · intro c start
    refine ⟨fun x spoilt => absurd (start.intact x) spoilt, ⟨fun p member => ?_, fun x => ?_⟩, fun t => ?_⟩
    · simp [start.sent] at member
    · rw [start.device]
      exact start.intact x
    · rw [start.idle t]
      intro image flies
      simp at flies
  · rintro c ⟨t, event⟩ c' before ⟨accounted, ⟨sent, device⟩, flights⟩ none_ step
    refine ⟨accounted.step step, ?_⟩
    have exclusive := (Holds.exclusive before).pair
    obtain ⟨s, l, taken, rfl⟩ := step
    have after (flight : FlightIntact crc l) (t' : Tid) :
        FlightIntact crc (Function.update c.threads t l t') :=
      (Function.forall_update_iff c.threads fun _ => FlightIntact crc).2 ⟨flight, fun t' _ => flights t'⟩ t'
    -- Only the two halves of a page write concern the pages and the device.
    have keep (sentSame : s.sent = c.shared.sent) (deviceSame : s.device = c.shared.device)
        (image : l.image = none) : Loadable crc (⟨s, Function.update c.threads t l⟩ : Config Tid) ∧
          ∀ t', FlightIntact crc (Function.update c.threads t l t') := by
      refine ⟨⟨by simpa only [sentSame] using sent, by simpa only [deviceSame] using device⟩, ?_⟩
      refine after fun image' flies => ?_
      simp [image] at flies
    cases move_of_next taken with
    | start idle => exact keep rfl rfl ((flights t).landed (by simp [writing, idle]))
    | fail todo | pass todo | lock todo _ | unlock todo | alter todo | refresh todo | succeed todo =>
      exact keep rfl rfl ((flights t).landed (by simp [writing, todo]))
    | @send x rest memory todo ready image =>
      have intact (y : Slot) (onPage : y.page = x.page) : (memory y).Intact crc :=
        image ▸ accounted.image exclusive none_ todo ready y onPage
      refine ⟨⟨fun p member => ?_, device⟩, after fun image' flies => ?_⟩
      · rcases List.mem_cons.1 member with rfl | old
        · exact intact
        · exact sent p old
      · obtain rfl := Option.some.inj flies
        exact ⟨x, by simp [writing, todo], intact⟩
    | @land x rest image todo flight =>
      obtain ⟨y, here, intact⟩ := flights t image flight
      obtain rfl : x = y := by simpa [writing, todo] using here
      refine ⟨⟨sent, fun z => ?_⟩, after fun image' flies => by simp at flies⟩
      dsimp only
      split
      · next onPage => exact intact z onPage
      · exact device z

instance (c : Config (Fin 2)) (event : Fin 2 × Event) : Decidable (NoneHalfDone c event) :=
  inferInstanceAs (Decidable (event.2 = .go → ∀ x ∈ starting (c.threads event.1),
    (∀ y ∈ c.shared.abandoned ++ (c.threads event.1).dirty, y.page = x.page → y = x) ∧
      ∀ t, t ≠ event.1 → ∀ y ∈ (c.threads t).dirty, y.page = x.page → y ≠ x →
        holding (c.threads event.1).todo = some x.handle ∧ holding (c.threads t).todo = some x.handle))

/-- The checksum of a slot is its contents. -/
def identityCrc (contents : Nat) : Nat := contents

theorem quietConfig_start_identity : Start identityCrc quietConfig where
  device := rfl
  intact _ := rfl
  clock _ := le_rfl
  unlocked _ := rfl
  sent := rfl
  abandoned := rfl
  reported := rfl
  idle _ := rfl

end Checksums

end Pages
end BlockFs
