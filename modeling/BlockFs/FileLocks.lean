import BlockFs.Descriptors
import BlockFs.Lib.Holder

namespace BlockFs

def F_SETLK : Nat := 6
def F_SETLKW : Nat := 7
def LOCK_SH : Nat := 1
def LOCK_EX : Nat := 2
def LOCK_UN : Nat := 8

namespace FileSystem

/-- `bfs_lock`, which dereferences `fi` before it tests it. Neither the command nor the kind of lock is
looked at. -/
def bfsLock (s : FileSystem) (fi : Nat) (_cmd : Nat) (_type : LockType) : FileSystem × Int :=
  match s.fcntlFile (toInt32 fi) .wrlck with
  | (s, res) => if res < 0 then (s, -s.errno) else (s, 0)

section Handlers
variable [Crc32]

/-- `bfs_flock`. -/
def bfsFlock (s : FileSystem) (env : Env) (path : Name) (fi : Option Nat) (_op : Nat) :
    Except Fault (FileSystem × Int) := do
  let (s, fd) ← match fi with
    | none => do
      let (s, fd) ← s.openFile env path O_WRONLY
      .ok (s, toU64 fd)
    | some fd => .ok (s, fd)
  match s.fcntlFile (toInt32 fd) .wrlck with
  | (s, res) =>
    if res < 0 then .ok (s, -s.errno)
    else if fi.isNone then .ok ((s.close env fd).1, 0)
    else .ok (s, 0)

/-- `flush`. -/
def flush (s : FileSystem) (env : Env) (path : Name) (fi : Option Nat) :
    Except Fault (FileSystem × Int) := do
  let (s, fd) ← match fi with
    | none => do
      let (s, fd) ← s.openFile env path 0
      .ok (s, toU64 fd)
    | some fd => .ok (s, fd)
  match s.dup (toInt32 fd) with
  | (s, newfd) =>
    match s.close env (toU64 newfd) with
    | (s, res) =>
      if res < 0 then .ok (s, -s.errno)
      else if fi.isNone then .ok ((s.close env fd).1, 0)
      else .ok (s, 0)

/-- `bfs_release`. -/
def bfsRelease (s : FileSystem) (env : Env) (fi : Option Nat) : FileSystem × Int :=
  match fi with
  | none => (s, 0)
  | some fd =>
    match s.close env fd with
    | (s, res) => if res < 0 then (s, -s.errno) else (s, -res)

end Handlers

/-- A call that has to do with locks. A handle is the `int` that an open returned. -/
inductive LockCall
  | fcntl (fd : Int) (lockType : LockType)
  | lock (fd : Int) (cmd : Nat) (lockType : LockType)
  | flock (path : Name) (fd : Int) (op : Nat)
  | openFile (path : Name) (flags : Nat)
  | dup (fd : Int)
  | close (fd : Int)
  | flush (path : Name) (fd : Int)
  | release (fd : Int)

namespace LockCall

def run [Crc32] (s : FileSystem) (env : Env) : LockCall → Except Fault (FileSystem × Int)
  | .fcntl fd lockType => .ok (s.fcntlFile fd lockType)
  | .lock fd cmd lockType => .ok (s.bfsLock (toU64 fd) cmd lockType)
  | .flock path fd op => s.bfsFlock env path (some (toU64 fd)) op
  | .openFile path flags => s.openFile env path flags
  | .dup fd => .ok (s.dup fd)
  | .close fd => .ok (s.close env (toU64 fd))
  | .flush path fd => s.flush env path (some (toU64 fd))
  | .release fd => .ok (s.bfsRelease env (some (toU64 fd)))

def handle : LockCall → Option Int
  | .fcntl fd _ => some fd
  | .lock fd _ _ => some fd
  | .flock _ fd _ => some fd
  | .openFile _ _ => none
  | .dup fd => some fd
  | .close fd => some fd
  | .flush _ fd => some fd
  | .release fd => some fd

end LockCall

/-- What is asked for with a kind of lock. -/
def LockType.request (fd : Int) : LockType → Holding.Request Int
  | .unlck => .release fd
  | .rdlck => .acquire fd
  | .wrlck => .acquire fd
  | .other => .neither

/-- What a call means for the lock of the file: `lock` with `F_GETLK` only asks, and the end of a handle
is a release. -/
def LockCall.request : LockCall → Holding.Request Int
  | .fcntl fd lockType => lockType.request fd
  | .lock fd cmd lockType => if cmd = F_SETLK ∨ cmd = F_SETLKW then lockType.request fd else .neither
  | .flock _ fd op =>
    if hasFlag op LOCK_UN then .release fd
    else if hasFlag op (LOCK_SH ||| LOCK_EX) then .acquire fd
    else .neither
  | .openFile _ _ => .neither
  | .dup _ => .neither
  | .close fd => .release fd
  | .flush _ _ => .neither
  | .release fd => .release fd

/-- The handle of a call is open on the file. -/
def LockCall.On (call : LockCall) (s : FileSystem) (f : FilePtr) : Prop :=
  ∀ fd, call.handle = some fd → -2 ^ 31 ≤ fd ∧ fd < 2 ^ 31 ∧ s.openedFile (toU64 fd) = some f

/-- A sequence of calls by handles of one file, with what they return. -/
inductive LockRun [Crc32] (f : FilePtr) : FileSystem → List (LockCall × Int) → FileSystem → Prop
  | done {s} : LockRun f s [] s
  | next {s t u env call r events} (on : call.On s f) (ran : call.run s env = .ok (t, r))
    (rest : LockRun f t events u) : LockRun f s ((call, r) :: events) u

/-- A call as a request, granted when it returns 0. -/
def lockOutcome (event : LockCall × Int) : Holding.Request Int × Bool :=
  (event.1.request, decide (event.2 = 0))

/-- The handler asks for what it is asked for, or cannot get it: it locks whatever the request is. -/
def asksToLock (holder : Option Int) : Holding.Request Int → Prop
  | .acquire _ => True
  | .release fd => ∃ other, holder = some other ∧ other ≠ fd
  | .neither => holder ≠ none

/-- The call neither runs into the one lock bit nor into the handlers: while a handle holds the lock no
other one unlocks or is closed and none is flushed, and the handlers are only asked to lock. -/
def LockCall.Considerate (holder : Option Int) : LockCall → Prop
  | .fcntl fd .unlck => ∀ other, holder = some other → other = fd
  | .fcntl _ _ => True
  | .lock fd cmd lockType => asksToLock holder (LockCall.lock fd cmd lockType).request
  | .flock path fd op => asksToLock holder (LockCall.flock path fd op).request
  | .openFile _ _ => True
  | .dup _ => True
  | .close fd => ∀ other, holder = some other → other = fd
  | .flush _ _ => holder = none
  | .release fd => ∀ other, holder = some other → other = fd

/-- Every call of a run is considerate of whoever holds the lock then. -/
def AllConsiderate : Option Int → List (LockCall × Int) → Prop
  | _, [] => True
  | holder, event :: events => event.1.Considerate holder ∧
    AllConsiderate (Holding.after holder (lockOutcome event)) events

section Bits
variable [Crc32] {s t : FileSystem} {env : Env} {f : FilePtr} {r : Int}

omit [Crc32] in
theorem toInt32_toU64 {fd : Int} (low : -2 ^ 31 ≤ fd) (high : fd < 2 ^ 31) : toInt32 (toU64 fd) = fd := by
  unfold toInt32 toU64
  dsimp only
  split <;> omega

/-- The file stays and is locked as before. -/
def SameLock (s t : FileSystem) (f : FilePtr) : Prop :=
  f < s.nextFile → f < t.nextFile ∧ (t.files f).locked = (s.files f).locked

omit [Crc32] in
theorem SameLock.trans {u : FileSystem} (first : SameLock s t f) (second : SameLock t u f) :
    SameLock s u f := by
  intro bound
  obtain ⟨there, same⟩ := first bound
  exact ⟨(second there).1, (second there).2.trans same⟩

omit [Crc32] in
theorem sameLock_of_outer (same : t.outer = s.outer) : SameLock s t f := by
  intro bound
  rw [show t.nextFile = s.nextFile from congrArg Outer.nextFile same]
  exact ⟨bound, congrFun (congrArg Outer.locks same) f⟩

theorem createFile_sameLock (filename : Name) (tmpfile : Bool) :
    SameLock s (s.createFile env filename tmpfile).1 f := by
  rcases @createFile_outer _ s env filename tmpfile with ⟨_, kept⟩ | ⟨_, made⟩
  · exact sameLock_of_outer kept
  · intro bound
    rw [show (s.createFile env filename tmpfile).1.nextFile = s.nextFile + 1 from
      congrArg Outer.nextFile made]
    refine ⟨Nat.lt_succ_of_lt bound, (congrFun (congrArg Outer.locks made) f).trans ?_⟩
    exact if_neg bound.ne

omit [Crc32] in
theorem openFd_sameLock (g : FilePtr) (flags : Nat) : SameLock s (s.openFd g flags).1 f := by
  intro bound
  unfold openFd getFd
  cases s.freeFdPool with
  | nil => exact ⟨bound, view_update s.files g f (·.locked) rfl⟩
  | cons fd rest => exact ⟨bound, view_update s.files g f (·.locked) rfl⟩

omit [Crc32] in
theorem dup_sameLock (fd : Int) : SameLock s (s.dup fd).1 f := by
  unfold dup
  split
  · exact sameLock_of_outer rfl
  · exact openFd_sameLock _ 0

theorem openFile_sameLock {path : Name} {flags : Nat} (ran : s.openFile env path flags = .ok (t, r)) :
    SameLock s t f := by
  obtain ⟨⟨u, target⟩, first, rest⟩ := Except.bind_eq_ok.mp ran
  have found : SameLock s u f := by
    cases openTarget_targeted first with
    | refused e => exact sameLock_of_outer rfl
    | taken e => exact sameLock_of_outer rfl
    | created e result =>
      next tmpfile =>
      have made := @createFile_sameLock _ { s with errno := e } env f path tmpfile
      rw [result] at made
      exact made
    | truncated e found result =>
      exact sameLock_of_outer ((ftruncate_outer result).trans (errno_outer s e))
  cases target with
  | none =>
    obtain ⟨rfl, _⟩ := Prod.mk.inj (Except.ok.inj rest)
    exact found
  | some g =>
    rw [← (Prod.mk.inj (Except.ok.inj rest)).1]
    exact found.trans (openFd_sameLock g flags)

/-- A close releases the lock of the file behind the handle and no other. -/
theorem close_locked (fd : Nat) : (s.close env fd).1.nextFile = s.nextFile ∧
    ((s.close env fd).1.files f).locked =
      if s.openedFile fd = some f then false else (s.files f).locked := by
  unfold close getOpenFile openedFile
  cases opened : s.openFiles.lookup fd with
  | none => exact ⟨rfl, rfl⟩
  | some o =>
    dsimp only
    have last := @closeLast_outer _ (s.modifyFile o.file fun g =>
      { g with locked := false, nlink := g.nlink - 1 }) env o.file
    generalize (s.modifyFile o.file fun g =>
      { g with locked := false, nlink := g.nlink - 1 }).closeLast env o.file = u at last
    have next : u.nextFile = s.nextFile := congrArg Outer.nextFile last
    have locks : (u.files f).locked = if o.file = f then false else (s.files f).locked := by
      refine (congrFun (congrArg Outer.locks last) f).trans ?_
      simp only [outer, modifyFile, Function.update_apply]
      by_cases here : f = o.file
      · rw [if_pos here, if_pos here.symm]
      · rw [if_neg here, if_neg (Ne.symm here)]
    rw [putFd]
    simp only [Option.map_some, Option.some.injEq]
    split
    · exact ⟨next, locks⟩
    · exact ⟨next, locks⟩

omit [Crc32] in
/-- `FcntlFile` on a handle of the file. -/
theorem fcntlFile_on {fd : Int} (opened : s.openedFile (toU64 fd) = some f) (lockType : LockType) :
    s.fcntlFile fd lockType =
      match lockType with
      | .unlck => if (s.files f).locked then (s.modifyFile f fun o => { o with locked := false }, 0)
        else ({ s with errno := ENOLCK }, -1)
      | .other => (s, -1)
      | _ => if (s.files f).locked then ({ s with errno := EACCES }, -1)
        else (s.modifyFile f fun o => { o with locked := true }, 0) := by
  unfold fcntlFile getOpenFile
  unfold openedFile at opened
  obtain ⟨o, there, rfl⟩ := Option.map_eq_some_iff.mp opened
  rw [there]
  cases lockType with
  | unlck =>
    dsimp only
    cases (s.files o.file).locked <;> rfl
  | rdlck => rfl
  | wrlck => rfl
  | other => rfl

omit [Crc32] in
/-- An attempt to lock: it sets the bit if that is clear and fails if not. -/
inductive Attempt (s : FileSystem) (f : FilePtr) : FileSystem → Int → Prop
  | locks (free : (s.files f).locked = false) :
    Attempt s f (s.modifyFile f fun o => { o with locked := true }) 0
  | refused (held : (s.files f).locked = true) {r : Int} (negative : r < 0) :
    Attempt s f { s with errno := EACCES } r

omit [Crc32] in
theorem fcntlFile_attempt {fd : Int} (opened : s.openedFile (toU64 fd) = some f) {lockType : LockType}
    (kind : lockType = .rdlck ∨ lockType = .wrlck) :
    Attempt s f (s.fcntlFile fd lockType).1 (s.fcntlFile fd lockType).2 := by
  rw [fcntlFile_on opened]
  cases bit : (s.files f).locked with
  | true =>
    have negative : (-1 : Int) < 0 := by decide
    rcases kind with rfl | rfl
    · exact .refused bit negative
    · exact .refused bit negative
  | false =>
    rcases kind with rfl | rfl
    · exact .locks bit
    · exact .locks bit

omit [Crc32] in
/-- The two handlers attempt to lock, whatever they are asked for. -/
theorem bfsLock_attempt {fd : Int} (low : -2 ^ 31 ≤ fd) (high : fd < 2 ^ 31)
    (opened : s.openedFile (toU64 fd) = some f) (cmd : Nat) (lockType : LockType) :
    Attempt s f (s.bfsLock (toU64 fd) cmd lockType).1 (s.bfsLock (toU64 fd) cmd lockType).2 := by
  unfold bfsLock
  rw [toInt32_toU64 low high, fcntlFile_on opened]
  cases bit : (s.files f).locked with
  | true => exact .refused bit (show -(EACCES : Int) < 0 by decide)
  | false => exact .locks bit

theorem bfsFlock_eq (path : Name) (fd op : Nat) :
    s.bfsFlock env path (some fd) op = .ok (s.bfsLock fd F_SETLK .wrlck) := by
  unfold bfsFlock bfsLock
  simp only [Except.ok_bind, Option.isNone_some, Bool.false_eq_true, if_false]
  split
  · rfl
  · rfl

omit [Crc32] in
/-- An attempt that answers a request to lock, or that cannot succeed. -/
theorem Attempt.step {holder : Option Int} {request : Holding.Request Int} (attempt : Attempt s f t r)
    (bound : f < s.nextFile) (bit : (s.files f).locked = holder.isSome)
    (asks : asksToLock holder request) :
    Holding.Right holder (request, decide (r = 0)) ∧ f < t.nextFile ∧
      (t.files f).locked = (Holding.after holder (request, decide (r = 0))).isSome := by
  cases attempt with
  | locks free =>
    have none_ : holder = none := by
      rw [free] at bit
      exact Option.not_isSome_iff_eq_none.mp (by simp [← bit])
    subst none_
    cases request with
    | acquire fd =>
      refine ⟨⟨fun _ => rfl, by simp⟩, bound, ?_⟩
      simp [modifyFile, Holding.after]
    | release fd => simp [asksToLock] at asks
    | neither => simp [asksToLock] at asks
  | refused held negative =>
    have denied : decide (r = 0) = false := decide_eq_false negative.ne
    rw [denied]
    obtain ⟨other, rfl⟩ : ∃ other, holder = some other := by
      rw [held] at bit
      exact Option.isSome_iff_exists.mp bit.symm
    refine ⟨?_, bound, ?_⟩
    · cases request with
      | acquire fd => exact ⟨by simp, fun _ _ _ => rfl⟩
      | release fd => trivial
      | neither => trivial
    · cases request with
      | acquire fd => exact held
      | release fd =>
        obtain ⟨_, same, apart⟩ := asks
        obtain rfl := Option.some.inj same
        simpa [Holding.after, apart] using held
      | neither => exact held

/-- The end of a handle that holds the lock, or while no one does. -/
theorem close_step {holder : Option Int} {fd : Int} (opened : s.openedFile (toU64 fd) = some f)
    (bound : f < s.nextFile) (own : ∀ other, holder = some other → other = fd) (granted : Bool) :
    f < (s.close env (toU64 fd)).1.nextFile ∧ ((s.close env (toU64 fd)).1.files f).locked =
      (Holding.after holder (.release fd, granted)).isSome := by
  obtain ⟨next, locked⟩ := @close_locked _ s env f (toU64 fd)
  rw [next, locked, if_pos opened]
  refine ⟨bound, ?_⟩
  cases holder with
  | none => rfl
  | some other =>
    obtain rfl := own other rfl
    simp [Holding.after]

/-- A flush while no one holds the lock. -/
theorem flush_step (path : Name) {fd : Nat} (bound : f < s.nextFile) (free : (s.files f).locked = false)
    (ran : s.flush env path (some fd) = .ok (t, r)) : f < t.nextFile ∧ (t.files f).locked = false := by
  obtain ⟨there, same⟩ := @dup_sameLock s f (toInt32 fd) bound
  unfold flush at ran
  simp only [Except.ok_bind, Option.isNone_some, Bool.false_eq_true, if_false] at ran
  obtain ⟨next, locked⟩ := @close_locked _ (s.dup (toInt32 fd)).1 env f (toU64 (s.dup (toInt32 fd)).2)
  have clear : (((s.dup (toInt32 fd)).1.close env (toU64 (s.dup (toInt32 fd)).2)).1.files f).locked =
      false := by
    rw [locked, same, free, ite_self]
  split at ran
  · obtain ⟨rfl, _⟩ := Prod.mk.inj (Except.ok.inj ran)
    exact ⟨next ▸ there, clear⟩
  · obtain ⟨rfl, _⟩ := Prod.mk.inj (Except.ok.inj ran)
    exact ⟨next ▸ there, clear⟩

/-- A considerate call answers as a lock with one holder, and the bit says whether there is one. -/
theorem LockCall.run_step {holder : Option Int} {call : LockCall} (bound : f < s.nextFile)
    (bit : (s.files f).locked = holder.isSome) (on : call.On s f) (considerate : call.Considerate holder)
    (ran : call.run s env = .ok (t, r)) :
    Holding.Right holder (lockOutcome (call, r)) ∧ f < t.nextFile ∧
      (t.files f).locked = (Holding.after holder (lockOutcome (call, r))).isSome := by
  have same (kept : SameLock s t f) : f < t.nextFile ∧ (t.files f).locked = holder.isSome :=
    ⟨(kept bound).1, (kept bound).2.trans bit⟩
  cases call with
  | fcntl fd lockType =>
    obtain ⟨low, high, opened⟩ := on fd rfl
    have attempt := @fcntlFile_attempt s f fd opened lockType
    have on_ := fcntlFile_on opened lockType
    rw [LockCall.run] at ran
    rw [Except.ok.inj ran] at attempt on_
    cases lockType with
    | unlck =>
      refine ⟨trivial, ?_⟩
      cases holder with
      | none =>
        rw [show (s.files f).locked = false from bit] at on_
        obtain ⟨rfl, rfl⟩ := Prod.mk.inj on_
        exact ⟨bound, bit⟩
      | some other =>
        obtain rfl := considerate other rfl
        rw [show (s.files f).locked = true from bit] at on_
        obtain ⟨rfl, rfl⟩ := Prod.mk.inj on_
        exact ⟨bound, by simp [modifyFile, Holding.after, lockOutcome, LockCall.request, LockType.request]⟩
    | rdlck => exact (attempt (.inl rfl)).step bound bit trivial
    | wrlck => exact (attempt (.inr rfl)).step bound bit trivial
    | other =>
      obtain ⟨rfl, rfl⟩ := Prod.mk.inj on_
      exact ⟨trivial, bound, bit⟩
  | lock fd cmd lockType =>
    obtain ⟨low, high, opened⟩ := on fd rfl
    have attempt := bfsLock_attempt low high opened cmd lockType
    rw [LockCall.run] at ran
    rw [Except.ok.inj ran] at attempt
    exact attempt.step bound bit considerate
  | flock path fd op =>
    obtain ⟨low, high, opened⟩ := on fd rfl
    have attempt := bfsLock_attempt low high opened F_SETLK .wrlck
    rw [LockCall.run, bfsFlock_eq] at ran
    rw [Except.ok.inj ran] at attempt
    exact attempt.step bound bit considerate
  | openFile path flags => exact ⟨trivial, same (openFile_sameLock ran)⟩
  | dup fd =>
    have kept := @dup_sameLock s f fd
    rw [LockCall.run] at ran
    rw [Except.ok.inj ran] at kept
    exact ⟨trivial, same kept⟩
  | close fd =>
    obtain ⟨low, high, opened⟩ := on fd rfl
    have closed := @close_step _ s env f holder fd opened bound considerate (decide (r = 0))
    rw [LockCall.run] at ran
    rw [Except.ok.inj ran] at closed
    exact ⟨trivial, closed⟩
  | flush path fd =>
    obtain rfl : holder = none := considerate
    exact ⟨trivial, flush_step path bound bit ran⟩
  | release fd =>
    obtain ⟨low, high, opened⟩ := on fd rfl
    have closed := @close_step _ s env f holder fd opened bound considerate (decide (r = 0))
    rw [LockCall.run, bfsRelease] at ran
    dsimp only at ran
    split at ran
    · obtain ⟨rfl, _⟩ := Prod.mk.inj (Except.ok.inj ran)
      exact ⟨trivial, closed⟩
    · obtain ⟨rfl, _⟩ := Prod.mk.inj (Except.ok.inj ran)
      exact ⟨trivial, closed⟩

theorem LockRun.oneHolder {holder : Option Int} {events : List (LockCall × Int)}
    (run : LockRun f s events t) (bound : f < s.nextFile) (bit : (s.files f).locked = holder.isSome)
    (considerate : AllConsiderate holder events) : Holding.OneHolder holder (events.map lockOutcome) := by
  induction run generalizing holder with
  | done => trivial
  | next on ran rest ih =>
    obtain ⟨now, later⟩ := considerate
    obtain ⟨right, there, bit'⟩ := LockCall.run_step bound bit on now ran
    exact ⟨right, ih there bit' later⟩

/-- In a run of considerate calls from a state where the file is not locked, whoever gets the lock keeps
it until it unlocks or is closed, and the next request gets it then. -/
theorem LockRun.flock_exclusive {events : List (LockCall × Int)} (run : LockRun f s events t)
    (bound : f < s.nextFile) (free : (s.files f).locked = false)
    (considerate : AllConsiderate none events) : Holding.Exclusive (events.map lockOutcome) :=
  (run.oneHolder bound (show (s.files f).locked = (none : Option Int).isSome from free) considerate).alone

/-- What the calls return one after the other, as long as every handle is open on the file. -/
def lockReplies (env : Env) (f : FilePtr) : List LockCall → FileSystem → Option (List Int × FileSystem)
  | [], s => some ([], s)
  | call :: calls, s =>
    if call.handle.all fun fd =>
        decide (-2 ^ 31 ≤ fd ∧ fd < 2 ^ 31 ∧ s.openedFile (toU64 fd) = some f) then do
      let (t, r) ← (call.run s env).toOption
      let (replies, u) ← lockReplies env f calls t
      some (r :: replies, u)
    else none

theorem LockRun.of_lockReplies {calls : List LockCall} {replies : List Int}
    (ran : lockReplies env f calls s = some (replies, t)) : LockRun f s (calls.zip replies) t := by
  induction calls generalizing s replies with
  | nil =>
    obtain ⟨rfl, rfl⟩ := Prod.mk.inj (Option.some.inj ran)
    exact .done
  | cons call calls ih =>
    unfold lockReplies at ran
    split at ran
    · next on =>
      obtain ⟨⟨u, r⟩, first, ran⟩ := Option.bind_eq_some_iff.mp ran
      obtain ⟨⟨later, v⟩, rest, ran⟩ := Option.bind_eq_some_iff.mp ran
      obtain ⟨rfl, rfl⟩ := Prod.mk.inj (Option.some.inj ran)
      have ran : call.run s env = .ok (u, r) := by
        cases run : call.run s env with
        | error => simp [run, Except.toOption] at first
        | ok out =>
          rw [run] at first
          exact congrArg Except.ok (Option.some.inj first)
      refine .next (fun fd handle => ?_) ran (ih rest)
      rw [handle, Option.all_some, decide_eq_true_eq] at on
      exact on
    · simp at ran

omit [Crc32] in
theorem LockRun.flock_exclusive_twice :
    ∃ s t, @LockRun zeroCrc 0 s [(.fcntl 0 .wrlck, 0), (.lock 1 F_SETLK .wrlck, -13), (.close 0, 0),
      (.fcntl 1 .wrlck, 0)] t ∧ Holding.Exclusive (α := Int) [(.acquire 0, true), (.acquire 1, false),
        (.release 0, true), (.acquire 1, true)] := by
  let _ := zeroCrc
  obtain ⟨s, _, bound, free, replies⟩ := Reachable.exists_run
    [.openFile ['/', 'a'] 0o102, .openFile ['/', 'a'] 2]
    (fun s => 0 < s.nextFile ∧ (s.files 0).locked = false ∧
      (lockReplies steadyEnv 0 [.fcntl 0 .wrlck, .lock 1 F_SETLK .wrlck, .close 0, .fcntl 1 .wrlck] s).map
        (·.1) = some [0, -13, 0, 0])
    (freshDevice_fresh 1 fun _ => 0) steadyEnv_ok anyCall_sound (by decide +kernel)
  obtain ⟨⟨_, t⟩, ran, rfl⟩ := Option.map_eq_some_iff.mp replies
  have run := LockRun.of_lockReplies ran
  refine ⟨s, t, run, run.flock_exclusive bound free ?_⟩
  exact ⟨trivial, trivial, by simp [LockCall.Considerate, Holding.after, lockOutcome, LockCall.request,
    LockType.request, F_SETLK], trivial, trivial⟩

omit [Crc32] in
/-- The flush of another handle of the file releases the lock. -/
theorem not_flock_exclusive :
    ∃ s t, @Reachable zeroCrc anyCall s ∧ 0 < s.nextFile ∧ (s.files 0).locked = false ∧
      ∃ r, @LockRun zeroCrc 0 s [(.fcntl 0 .wrlck, 0), (.flush ['/', 'a'] 1, r), (.fcntl 1 .wrlck, 0)] t ∧
        ¬Holding.Exclusive (List.map lockOutcome
          [(.fcntl 0 .wrlck, 0), (.flush ['/', 'a'] 1, r), (.fcntl 1 .wrlck, 0)]) := by
  let _ := zeroCrc
  obtain ⟨s, reach, bound, free, replies⟩ := Reachable.exists_run
    [.openFile ['/', 'a'] 0o102, .openFile ['/', 'a'] 2]
    (fun s => 0 < s.nextFile ∧ (s.files 0).locked = false ∧
      (lockReplies steadyEnv 0 [.fcntl 0 .wrlck, .flush ['/', 'a'] 1, .fcntl 1 .wrlck] s).map
        (·.1) = some [0, 0, 0])
    (freshDevice_fresh 1 fun _ => 0) steadyEnv_ok anyCall_sound (by decide +kernel)
  obtain ⟨⟨_, t⟩, ran, rfl⟩ := Option.map_eq_some_iff.mp replies
  refine ⟨s, t, reach, bound, free, 0, LockRun.of_lockReplies ran, fun exclusive => ?_⟩
  have refused := exclusive.excludes [] [(.neither, true)] [] 0 1 true rfl (by simp) (by decide)
  simp at refused

end Bits

end FileSystem

end BlockFs
