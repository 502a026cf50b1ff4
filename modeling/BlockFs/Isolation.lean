import BlockFs.Pwriters
import BlockFs.Refusals

namespace BlockFs

/-- How far a `pread` has come: before each of the three times it looks at the file size, before it plans
its blocks, and between two blocks. -/
inductive PreadPhase
  | entered
  | inside
  | long
  | clipped (need : Nat)
  | moving (blocks : List BlockData) (ret : Int)
  | returned (ret : Int)

/-- One call of `OpenFile::pread` in progress. -/
structure Preader where
  fd : Nat
  file : FilePtr
  buffer : Nat → UInt8
  size : Nat
  offset : Nat
  phase : PreadPhase

namespace Preader
open FileSystem

/-- One step of `OpenFile::pread`; none where the process stops. The read of a block is one step under
the lock of the block. -/
def next (s : FileSystem) (l : Preader) : Option (FileSystem × Preader) :=
  match l.phase with
  | .entered =>
    if l.size = 0 ∨ (s.fileMeta l.file).size ≤ l.offset then some (s, { l with phase := .returned 0 })
    else some (s, { l with phase := .inside })
  | .inside =>
    if (s.fileMeta l.file).size < (l.offset + l.size) % 2 ^ 64 then some (s, { l with phase := .long })
    else some (s, { l with phase := .clipped l.size })
  | .long => some (s, { l with phase := .clipped (toU64 ((s.fileMeta l.file).size - l.offset)) })
  | .clipped need =>
    match s.getFileBlock l.file 0 with
    | none => some (s, { l with phase := .returned (-1) })
    | some b =>
      match planTransfer s.superMeta (s.fileBlockMetas b) need l.offset with
      | .error _ => none
      | .ok blocks => some (s, { l with phase := .moving blocks 0 })
  | .moving [] ret =>
    match s.openFiles.lookup l.fd with
    | none => some (s, { l with phase := .returned ret })
    | some o => some (s.advance l.fd o ret, { l with phase := .returned ret })
  | .moving (block :: blocks) ret =>
    if kBlockLockNum ≤ block.blockId then none
    else
      match s.disk.preadCache l.buffer block.bufferOffset block.size block.devOffset with
      | (buffer, blockRead) =>
        if blockRead ≤ 0 then some (s, { l with buffer := buffer, phase := .moving [] ret })
        else some (s, { l with buffer := buffer, phase := .moving blocks (ret + blockRead) })
  | .returned _ => none

section Alone
variable {s s' : FileSystem} {l : Preader} {o : OpenFile} {back : Nat → UInt8} {r : Int}

/-- The steps of one reader whom nobody disturbs. -/
def Alone (x y : FileSystem × Preader) : Prop := y ∈ next x.1 x.2

theorem alone_moving {blocks : List BlockData} {buffer : Nat → UInt8} {ret n : Int}
    (moved : readBlocks s.disk blocks buffer = .ok (back, n)) :
    Relation.ReflTransGen Alone (s, { l with buffer := buffer, phase := .moving blocks ret })
      (s, { l with buffer := back, phase := .moving [] (ret + n) }) := by
  induction blocks generalizing buffer ret n with
  | nil =>
    obtain ⟨rfl, rfl⟩ := Prod.mk.inj (Except.ok.inj moved)
    rw [Int.add_zero]
  | cons block blocks ih =>
    rw [readBlocks] at moved
    split at moved
    · simp at moved
    next lock =>
    let out := s.disk.preadCache buffer block.bufferOffset block.size block.devOffset
    have step : Alone (s, { l with buffer := buffer, phase := .moving (block :: blocks) ret })
        (if out.2 ≤ 0 then (s, { l with buffer := out.1, phase := .moving [] ret })
        else (s, { l with buffer := out.1, phase := .moving blocks (ret + out.2) })) := by
      rw [Alone, next]
      dsimp only
      rw [if_neg lock]
      split <;> rfl
    dsimp only at moved
    split at moved
    · next stops =>
      obtain ⟨rfl, rfl⟩ := Prod.mk.inj (Except.ok.inj moved)
      rw [if_pos stops] at step
      rw [Int.add_zero]
      exact .single step
    · next goes =>
      rw [if_neg goes] at step
      obtain ⟨⟨e, m⟩, rest, done⟩ := Except.bind_eq_ok.mp moved
      obtain ⟨rfl, rfl⟩ := Prod.mk.inj (Except.ok.inj done)
      rw [← Int.add_assoc]
      exact .head step (ih rest)

/-- A reader whom nobody disturbs does what `OpenFile::pread` does. -/
theorem alone_pread (opened : s.openFiles.lookup l.fd = some o) (file : o.file = l.file)
    (short : (s.fileMeta l.file).size < 2 ^ 64)
    (result : s.pread l.fd o l.buffer l.size l.offset = .ok (s', back, r)) :
    Relation.ReflTransGen Alone (s, { l with phase := .entered })
      (s', { l with buffer := back, phase := .returned r }) := by
  have reading {need : Nat} (run : s.readData l.fd o l.buffer need l.offset = .ok (s', back, r)) :
      Relation.ReflTransGen Alone (s, { l with phase := .clipped need })
        (s', { l with buffer := back, phase := .returned r }) := by
    rw [readData, file] at run
    split at run
    · next absent =>
      obtain ⟨rfl, rest⟩ := Prod.mk.inj (Except.ok.inj run)
      obtain ⟨rfl, rfl⟩ := Prod.mk.inj rest
      refine .single ?_
      rw [Alone, next]
      dsimp only
      rw [absent]
      rfl
    · next b item =>
      obtain ⟨blocks, planned, run⟩ := Except.bind_eq_ok.mp run
      obtain ⟨⟨filled, n⟩, moved, done⟩ := Except.bind_eq_ok.mp run
      obtain ⟨rfl, rest⟩ := Prod.mk.inj (Except.ok.inj done)
      obtain ⟨rfl, rfl⟩ := Prod.mk.inj rest
      have plan : Alone (s, { l with phase := .clipped need }) (s, { l with phase := .moving blocks 0 }) := by
        rw [Alone, next]
        dsimp only
        rw [item]
        dsimp only
        rw [planned]
        rfl
      have last : Alone (s, { l with buffer := filled, phase := .moving [] (0 + n) })
          (s.advance l.fd o n, { l with buffer := filled, phase := .returned n }) := by
        rw [Alone, next, Int.zero_add]
        dsimp only
        rw [opened]
        rfl
      exact .head plan ((alone_moving moved).tail last)
  dsimp only [pread] at result
  rw [file] at result
  split at result
  · next nothing =>
    obtain ⟨rfl, rest⟩ := Prod.mk.inj (Except.ok.inj result)
    obtain ⟨rfl, rfl⟩ := Prod.mk.inj rest
    refine .single ?_
    rw [Alone, next]
    dsimp only
    rw [if_pos nothing]
    rfl
  · next inside =>
    have enter : Alone (s, { l with phase := .entered }) (s, { l with phase := .inside }) := by
      simp only [Alone, next, if_neg inside, Option.mem_def]
    refine .head enter ?_
    by_cases long : (s.fileMeta l.file).size < (l.offset + l.size) % 2 ^ 64
    · rw [if_pos long] at result
      have look : Alone (s, { l with phase := .inside }) (s, { l with phase := .long }) := by
        simp only [Alone, next, if_pos long, Option.mem_def]
      have clipped : toU64 ((s.fileMeta l.file).size - l.offset) = (s.fileMeta l.file).size - l.offset := by
        unfold toU64
        omega
      have clip : Alone (s, { l with phase := .long })
          (s, { l with phase := .clipped ((s.fileMeta l.file).size - l.offset) }) := by
        simp only [Alone, next, clipped, Option.mem_def]
      exact .head look (.head clip (reading result))
    · rw [if_neg long] at result
      have look : Alone (s, { l with phase := .inside }) (s, { l with phase := .clipped l.size }) := by
        simp only [Alone, next, if_neg long, Option.mem_def]
      exact .head look (reading result)

end Alone

end Preader

/-- What a thread is about: a `pread`, a `pwrite`, or a call that takes effect at once. -/
inductive Job
  | reading (l : Preader)
  | writing (l : Pwriter)
  | unlinking (path : Name)
  | truncatingPath (path : Name) (size : Int)
  | truncatingFd (fd size : Int)
  | done

namespace Job

/-- The descriptor a transfer works through, and its file. -/
def target : Job → Option (Nat × FilePtr)
  | .reading l => some (l.fd, l.file)
  | .writing l => some (l.fd, l.file)
  | _ => none

def offset : Job → Nat
  | .reading l => l.offset
  | .writing l => l.offset
  | _ => 0

/-- The blocks a transfer has planned and not touched yet. -/
def pending : Job → List BlockData
  | .reading l =>
    match l.phase with
    | .moving blocks _ => blocks
    | _ => []
  | .writing l =>
    match l.phase with
    | .moving blocks _ => blocks
    | _ => []
  | _ => []

/-- The truncation the next step makes. -/
def cut (s : FileSystem) : Job → Option (FilePtr × Nat)
  | .writing l =>
    match l.phase with
    | .short => some (l.file, l.reach)
    | _ => none
  | .truncatingPath path size => s.ftruncateCall (.truncatePath path size)
  | .truncatingFd fd size => s.ftruncateCall (.truncateFd fd size)
  | _ => none

/-- The range the next step plans. -/
def planned : Job → Option Nat
  | .reading l =>
    match l.phase with
    | .clipped need => some need
    | _ => none
  | .writing l =>
    match l.phase with
    | .fits => some l.size
    | _ => none
  | _ => none

/-- One step of a thread. -/
def next [Crc32] (s : FileSystem) (job : Job) (env : Env) : Option (FileSystem × Job) :=
  match job with
  | .reading l =>
    match l.next s with
    | none => none
    | some (s, l) => some (s, .reading l)
  | .writing l =>
    match l.next s env with
    | none => none
    | some (s, l) => some (s, .writing l)
  | .unlinking path => some ((s.unlink env path).1, .done)
  | .truncatingPath path size =>
    match s.truncatePath env path size with
    | .error _ => none
    | .ok (s, _) => some (s, .done)
  | .truncatingFd fd size =>
    match s.truncateFd env fd size with
    | .error _ => none
    | .ok (s, _) => some (s, .done)
  | .done => none

end Job

namespace FileSystem

/-- A truncation to `n` bytes shrinks the file: it is shorter than the file, and there is what the shrink
takes. -/
def Shortens (s : FileSystem) (f : FilePtr) (n : Nat) : Prop :=
  n < (s.fileMeta f).size ∧ s.freeFhs ≠ [] ∧ ¬s.LosesSlot f n

/-- The range, and at least its first byte, lies in the blocks that the file lists, if there are any. -/
def InBlocks (s : FileSystem) (f : FilePtr) (offset size : Nat) : Prop :=
  s.blockIds f = [] ∨ offset + max size 1 ≤ (s.blockIds f).length * kBlockSize

/-- A block of a plan for `f` is an entry of its list, and its bytes lie in the block. -/
structure Holds (s : FileSystem) (f : FilePtr) (offset : Nat) (block : BlockData) : Prop where
  listed : (s.blockIds f)[(offset + block.bufferOffset) / kBlockSize]? = some block.blockId
  address : ∃ i, i + block.size ≤ kBlockSize ∧ block.devOffset = s.devOffset block.blockId i

/-- A step that keeps the descriptors, and the entries of open files that are not `gone`. -/
structure KeepsEntries (s s' : FileSystem) (gone : FilePtr → Nat → Prop) : Prop where
  superMeta : s'.superMeta = s.superMeta
  opened : ∀ fd, s'.openedFile fd = s.openedFile fd
  entries : ∀ fd f, s.openedFile fd = some f → ∀ (k id : Nat), ¬gone f k → (s.blockIds f)[k]? = some id →
    (s'.blockIds f)[k]? = some id

section Keeping
variable [Crc32] {s s' : FileSystem} {env : Env} {lost : Lost} {f : FilePtr} {n : Nat} {r : Int}
  {gone : FilePtr → Nat → Prop} {collides : Prop}

omit [Crc32] in
theorem Quiet.keepsEntries (quiet : Quiet s s') : KeepsEntries s s' gone where
  superMeta := quiet.resources.layout.superMeta
  opened := quiet.opened
  entries _ g _ k id _ entry := by
    rw [(quiet.resources.sameFile g).blockIds_eq]
    exact entry

theorem Change.keepsEntries (coherent : Coherent s lost) (change : Change collides s s')
    (frame : s'.outer = s.outer) : KeepsEntries s s' gone := by
  have openFiles : s'.openFiles = s.openFiles := congrArg Outer.openFiles frame
  have opened (fd : Nat) : s'.openedFile fd = s.openedFile fd := by rw [openedFile, openedFile, openFiles]
  refine ⟨congrArg Outer.superMeta frame, opened, fun fd g here k id _ entry => ?_⟩
  have below := coherent.registered.bound (coherent.registered.opens fd g here)
  have reached : s'.Accessible g := .inl ⟨fd, (opened fd).trans here⟩
  rw [(change.sameFile coherent below reached).blockIds_eq]
  exact entry

/-- A shrink keeps the entries of the whole blocks it leaves; a growth continues the list. -/
theorem Truncation.entry (consistent : Consistent s lost) (bound : f < s.nextFile)
    (truncation : Truncation s env f n s' r) {k id : Nat}
    (left : s.Shortens f n → k < n / kBlockSize) (entry : (s.blockIds f)[k]? = some id) :
    (s'.blockIds f)[k]? = some id := by
  cases truncation with
  | grow _ extension =>
    obtain ⟨added, ids⟩ := (extension.continues consistent).1
    obtain ⟨inside, _⟩ := List.getElem?_eq_some_iff.mp entry
    rw [← ids, List.getElem?_append_left inside]
    exact entry
  | keep _ => exact entry
  | shrink shrinks entries shrinkage =>
    rcases shrinkage.outcome consistent bound entries shrinks with ⟨_, same⟩ | ⟨done, _⟩
    · rw [(same.sameFile f bound).blockIds_eq]
      exact entry
    · obtain ⟨w, fileBlock, taken, cut⟩ := shrinkage.cutTo consistent bound entries shrinks done
      obtain ⟨rest, free, _⟩ := cut.handles
      have goes : ¬s.LosesSlot f n := by
        rcases shrinkage.failure consistent with ⟨_, goes⟩ | ⟨_, goes, _⟩ | ⟨failed, _⟩
        · exact goes
        · exact goes
        · omega
      have short := left ⟨shrinks, by simp [free], goes⟩
      have index := cut.index
      rw [cut.listed, List.getElem?_append_left (by rw [List.length_take]; omega), List.getElem?_take,
        if_pos short]
      exact entry

theorem Truncation.keepsEntries (coherent : Coherent s lost) (known : s.Accessible f)
    (truncation : Truncation s env f n s' r)
    (left : ∀ k, ¬gone f k → s.Shortens f n → k < n / kBlockSize) : KeepsEntries s s' gone := by
  have registered := coherent.registered
  have bound := registered.bound (known.registered registered)
  refine ⟨(truncation.recut coherent.consistent bound known).superMeta,
    truncation.openedFile coherent bound, fun fd g here k id stays entry => ?_⟩
  by_cases mine : g = f
  · subst mine
    exact truncation.entry coherent.consistent bound (left k stays) entry
  · have below := registered.bound (registered.opens fd g here)
    rw [(truncation.sameFile coherent.consistent bound below mine).blockIds_eq]
    exact entry

/-- What a transfer plans in the blocks of its file, it plans for blocks the file lists. -/
theorem Consistent.holds_planned (consistent : Consistent s lost) (bound : f < s.nextFile) {b : FileBlockPtr}
    (item : s.getFileBlock f 0 = some b) {offset size : Nat} {blocks : List BlockData}
    (inside : s.InBlocks f offset size)
    (planned : planTransfer s.superMeta (s.fileBlockMetas b) size offset = .ok blocks) :
    ∀ block ∈ blocks, s.Holds f offset block := by
  obtain ⟨entries, backs⟩ := consistent.entries_of_item bound item
  have positive := ((consistent.rep f bound).of_entries entries).1
  have ids : s.blockIds f = (s.fileBlockMetas b).ids := blockIds_single (by simp [attached, entries])
  have length : (s.blockIds f).length = (s.fileBlockMetas b).usedBlockNum := by
    rw [ids, FileBlockMeta.ids_length]
  have covers := backs.covers
  have range : offset + max size 1 ≤ (s.fileBlockMetas b).usedBlockNum * kBlockSize := by
    rcases inside with empty | inside
    · rw [empty, List.length_nil] at length
      rw [← length, Nat.zero_mul] at covers
      omega
    · rwa [length] at inside
  by_cases some_ : 0 < size
  · obtain ⟨blocks', planned', plan⟩ :=
      @planTransfer_plan s.superMeta (s.fileBlockMetas b) offset size (by omega) backs.bounded some_
    obtain rfl : blocks = blocks' := Except.ok.inj (planned.symm.trans planned')
    intro block member
    obtain ⟨curr, piece, _⟩ := plan.pieces block member
    refine ⟨?_, (offset + curr) % kBlockSize, piece.inside, ?_⟩
    · rw [piece.bufferOffset, piece.blockId, ids]
      exact FileBlockMeta.ids_getElem? piece.index
    · rw [piece.devOffset, byteAddress, ← piece.blockId, devOffset]
  · obtain rfl : size = 0 := by omega
    have index : offset / kBlockSize < (s.fileBlockMetas b).usedBlockNum :=
      Nat.div_lt_of_lt_mul (by rw [Nat.mul_comm]; omega)
    have capacity : kFileBlockCapacity = 1000 := rfl
    have bounded := backs.bounded
    have short := Nat.mod_lt offset kBlockSize_positive
    rw [planTransfer, Nat.mod_eq_of_lt (by omega), planBlocks, FileBlockMeta.getBlockId,
      if_pos (by omega), Except.ok_bind] at planned
    simp only [Nat.zero_min, Nat.zero_sub, ite_self, Nat.add_zero, le_refl, if_true] at planned
    obtain rfl := Except.ok.inj planned
    intro block member
    obtain rfl := List.mem_singleton.mp member
    refine ⟨?_, offset % kBlockSize, short.le, rfl⟩
    rw [ids]
    exact FileBlockMeta.ids_getElem? index

omit [Crc32] in
theorem Holds.keeps {offset : Nat} {block : BlockData} (holds : s.Holds f offset block)
    (keeps : KeepsEntries s s' gone) {fd : Nat} (opened : s.openedFile fd = some f)
    (stays : ¬gone f ((offset + block.bufferOffset) / kBlockSize)) : s'.Holds f offset block := by
  obtain ⟨i, inside, address⟩ := holds.address
  refine ⟨keeps.entries fd f opened _ _ stays holds.listed, i, inside, ?_⟩
  rw [address, devOffset, devOffset, keeps.superMeta]

end Keeping

end FileSystem

namespace Job
open FileSystem

/-- The entries of the list of `f` that the next step gives up. -/
def Gone (s : FileSystem) (job : Job) (f : FilePtr) (k : Nat) : Prop :=
  ∃ n, job.cut s = some (f, n) ∧ s.Shortens f n ∧ n / kBlockSize ≤ k

/-- The next step of a transfer: what it has planned of late are blocks its file holds. -/
structure Goes (s' : FileSystem) (job job' : Job) : Prop where
  target : ∀ fd f, job'.target = some (fd, f) → job.target = some (fd, f)
  offset : ∀ fd f, job'.target = some (fd, f) → job'.offset = job.offset
  pending : ∀ fd f, job'.target = some (fd, f) → ∀ block ∈ job'.pending,
    block ∈ job.pending ∨ s'.Holds f job.offset block

section Steps
variable [Crc32] {s s' : FileSystem} {env : Env} {lost : Lost} {job job' : Job}

theorem reading_goes {l l' : Preader} (coherent : Coherent s lost) (opened : s.openedFile l.fd = some l.file)
    (ranged : ∀ need, (Job.reading l).planned = some need → s.InBlocks l.file l.offset need)
    (taken : l.next s = some (s', l')) : Quiet s s' ∧ s'.dirSide = s.dirSide ∧
      Goes s' (.reading l) (.reading l') := by
  have bound := coherent.registered.bound (coherent.registered.opens l.fd l.file opened)
  have stay {phase : PreadPhase} {buffer : Nat → UInt8} {t : FileSystem}
      (fewer : ∀ block ∈ (Job.reading { l with buffer := buffer, phase := phase }).pending,
        block ∈ (Job.reading l).pending ∨ t.Holds l.file l.offset block) :
      Goes t (.reading l) (.reading { l with buffer := buffer, phase := phase }) := by
    refine ⟨fun fd f same => same, fun fd f _ => rfl, fun fd f same => ?_⟩
    obtain ⟨_, rfl⟩ := Prod.mk.inj (Option.some.inj same)
    exact fewer
  have idle {phase : PreadPhase} {buffer : Nat → UInt8} {t : FileSystem}
      (nothing : (Job.reading { l with buffer := buffer, phase := phase }).pending = []) :
      Goes t (.reading l) (.reading { l with buffer := buffer, phase := phase }) := by
    refine stay fun block member => ?_
    rw [nothing] at member
    exact absurd member List.not_mem_nil
  unfold Preader.next at taken
  split at taken
  · split at taken
    · obtain ⟨rfl, rfl⟩ := Prod.mk.inj (Option.some.inj taken)
      exact ⟨.refl s, rfl, idle rfl⟩
    · obtain ⟨rfl, rfl⟩ := Prod.mk.inj (Option.some.inj taken)
      exact ⟨.refl s, rfl, idle rfl⟩
  · split at taken
    · obtain ⟨rfl, rfl⟩ := Prod.mk.inj (Option.some.inj taken)
      exact ⟨.refl s, rfl, idle rfl⟩
    · obtain ⟨rfl, rfl⟩ := Prod.mk.inj (Option.some.inj taken)
      exact ⟨.refl s, rfl, idle rfl⟩
  · obtain ⟨rfl, rfl⟩ := Prod.mk.inj (Option.some.inj taken)
    exact ⟨.refl s, rfl, idle rfl⟩
  · next need phase =>
    split at taken
    · obtain ⟨rfl, rfl⟩ := Prod.mk.inj (Option.some.inj taken)
      exact ⟨.refl s, rfl, idle rfl⟩
    next b item =>
    split at taken
    · simp at taken
    next blocks planned =>
    obtain ⟨rfl, rfl⟩ := Prod.mk.inj (Option.some.inj taken)
    have inside := ranged need (by simp only [Job.planned, phase])
    exact ⟨.refl s, rfl, stay fun block member =>
      .inr (coherent.consistent.holds_planned bound item inside planned block member)⟩
  · split at taken
    · obtain ⟨rfl, rfl⟩ := Prod.mk.inj (Option.some.inj taken)
      exact ⟨.refl s, rfl, idle rfl⟩
    · next o there =>
      obtain ⟨rfl, rfl⟩ := Prod.mk.inj (Option.some.inj taken)
      have here : s.openedFile l.fd = some o.file := by rw [openedFile, there]; rfl
      exact ⟨reposition_quiet here _, rfl, idle rfl⟩
  · next block blocks ret phase =>
    split at taken
    · simp at taken
    dsimp only at taken
    split at taken
    · obtain ⟨rfl, rfl⟩ := Prod.mk.inj (Option.some.inj taken)
      exact ⟨.refl s, rfl, idle rfl⟩
    · obtain ⟨rfl, rfl⟩ := Prod.mk.inj (Option.some.inj taken)
      refine ⟨.refl s, rfl, stay fun block member => .inl ?_⟩
      simp only [Job.pending, phase]
      exact List.mem_cons_of_mem _ member
  · simp at taken

theorem writing_goes {l l' : Pwriter} (coherent : Coherent s lost) (ok : env.IoOk)
    (opened : s.openedFile l.fd = some l.file)
    (narrow : ∀ f n, (Job.writing l).cut s = some (f, n) → s.Narrow f n)
    (ranged : ∀ need, (Job.writing l).planned = some need → s.InBlocks l.file l.offset need)
    (taken : l.next s env = some (s', l')) :
    (∃ lost, Coherent s' lost) ∧ KeepsEntries s s' ((Job.writing l).Gone s) ∧
      Goes s' (.writing l) (.writing l') := by
  have registered := coherent.registered.opens l.fd l.file opened
  have bound := coherent.registered.bound registered
  have stay {phase : PwritePhase} {t : FileSystem}
      (fewer : ∀ block ∈ (Job.writing { l with phase := phase }).pending,
        block ∈ (Job.writing l).pending ∨ t.Holds l.file l.offset block) :
      Goes t (.writing l) (.writing { l with phase := phase }) := by
    refine ⟨fun fd f same => same, fun fd f _ => rfl, fun fd f same => ?_⟩
    obtain ⟨_, rfl⟩ := Prod.mk.inj (Option.some.inj same)
    exact fewer
  have idle {phase : PwritePhase} {t : FileSystem}
      (nothing : (Job.writing { l with phase := phase }).pending = []) :
      Goes t (.writing l) (.writing { l with phase := phase }) := by
    refine stay fun block member => ?_
    rw [nothing] at member
    exact absurd member List.not_mem_nil
  have still {t : FileSystem} (quiet : Quiet s t) (homes : t.dirSide = s.dirSide) :
      (∃ lost, Coherent t lost) ∧ KeepsEntries s t ((Job.writing l).Gone s) :=
    ⟨⟨lost, quiet.coherent coherent (coherent.housed.of_dirSide homes)⟩, quiet.keepsEntries⟩
  have same := still (.refl s) rfl
  unfold Pwriter.next at taken
  split at taken
  · split at taken
    · obtain ⟨rfl, rfl⟩ := Prod.mk.inj (Option.some.inj taken)
      exact ⟨same.1, same.2, idle rfl⟩
    · split at taken
      · obtain ⟨rfl, rfl⟩ := Prod.mk.inj (Option.some.inj taken)
        exact ⟨same.1, same.2, idle rfl⟩
      · obtain ⟨rfl, rfl⟩ := Prod.mk.inj (Option.some.inj taken)
        exact ⟨same.1, same.2, idle rfl⟩
  · next phase =>
    have cuts : (Job.writing l).cut s = some (l.file, l.reach) := by simp only [Job.cut, phase]
    have known : s.Accessible l.file := .inl ⟨l.fd, opened⟩
    obtain ⟨u, r, run, truncation⟩ := ftruncate_cases coherent.consistent ok bound (narrow _ _ cuts)
    obtain ⟨lost', _, _, coherent'⟩ := truncation.coherent coherent registered
    have keeps : KeepsEntries s u ((Job.writing l).Gone s) := by
      refine truncation.keepsEntries coherent known fun k stays shortens => ?_
      by_contra low
      exact stays ⟨l.reach, cuts, shortens, Nat.not_lt.mp low⟩
    rw [run] at taken
    dsimp only at taken
    split at taken
    · obtain ⟨rfl, rfl⟩ := Prod.mk.inj (Option.some.inj taken)
      exact ⟨⟨lost', coherent'⟩, keeps, idle rfl⟩
    · obtain ⟨rfl, rfl⟩ := Prod.mk.inj (Option.some.inj taken)
      exact ⟨⟨lost', coherent'⟩, keeps, idle rfl⟩
  · next phase =>
    obtain ⟨files, superMeta, slots, _, _, homes⟩ := stamped_frame s env l.file
    have quiet : Quiet s (s.stamped env l.file) := stamped_quiet l.file
    have after := still quiet homes
    dsimp only at taken
    rw [getFileBlock, files, superMeta, slots] at taken
    split at taken
    · simp at taken
    next b item =>
    split at taken
    · simp at taken
    next blocks planned =>
    obtain ⟨rfl, rfl⟩ := Prod.mk.inj (Option.some.inj taken)
    have inside := ranged l.size (by simp only [Job.planned, phase])
    refine ⟨after.1, after.2, stay fun block member => .inr ?_⟩
    have holds := coherent.consistent.holds_planned bound item inside planned block member
    exact @Holds.keeps _ _ l.file (fun _ _ => False) _ _ holds quiet.keepsEntries _ opened id
  · next ret _ =>
    split at taken
    · obtain ⟨rfl, rfl⟩ := Prod.mk.inj (Option.some.inj taken)
      exact ⟨same.1, same.2, idle rfl⟩
    · next o there =>
      obtain ⟨rfl, rfl⟩ := Prod.mk.inj (Option.some.inj taken)
      have here : s.openedFile l.fd = some o.file := by rw [openedFile, there]; rfl
      have after := still (reposition_quiet here (toU64 (o.appendPos + ret))) rfl
      exact ⟨after.1, after.2, idle rfl⟩
  · next block blocks ret phase =>
    split at taken
    · simp at taken
    obtain ⟨data, n, run⟩ :=
      pwriteCache_data s.disk l.buffer block.bufferOffset block.size block.devOffset
    rw [run] at taken
    dsimp only at taken
    have after : (∃ lost, Coherent (s.stored data) lost) ∧
        KeepsEntries s (s.stored data) ((Job.writing l).Gone s) :=
      ⟨⟨lost, stored_coherent coherent data⟩, rfl, fun _ => rfl, fun _ _ _ _ _ _ entry => entry⟩
    split at taken
    · obtain ⟨rfl, rfl⟩ := Prod.mk.inj (Option.some.inj taken)
      exact ⟨after.1, after.2, idle rfl⟩
    · obtain ⟨rfl, rfl⟩ := Prod.mk.inj (Option.some.inj taken)
      refine ⟨after.1, after.2, stay fun block' member => .inl ?_⟩
      simp only [Job.pending, phase]
      exact List.mem_cons_of_mem _ member
  · simp at taken

/-- A truncation of a file that a call has found. -/
theorem truncating_keeps {f : FilePtr} {n : Nat} {r : Int} (coherent : Coherent s lost) (ok : env.IoOk)
    (known : s.Accessible f) (cuts : job.cut s = some (f, n)) (narrow : s.Narrow f n)
    (run : s.ftruncate env f n = .ok (s', r)) :
    (∃ lost, Coherent s' lost) ∧ KeepsEntries s s' (job.Gone s) := by
  have registered := known.registered coherent.registered
  have bound := coherent.registered.bound registered
  obtain ⟨u, r', run', truncation⟩ := ftruncate_cases coherent.consistent ok bound narrow
  obtain ⟨rfl, rfl⟩ := Prod.mk.inj (Except.ok.inj (run'.symm.trans run))
  obtain ⟨lost', _, _, coherent'⟩ := truncation.coherent coherent registered
  refine ⟨⟨lost', coherent'⟩, truncation.keepsEntries coherent known fun k stays shortens => ?_⟩
  by_contra low
  exact stays ⟨n, cuts, shortens, Nat.not_lt.mp low⟩

/-- Every step keeps the descriptors and all entries but those it gives up, and plans for blocks of the
file. -/
theorem next_goes (coherent : Coherent s lost) (ok : env.IoOk)
    (opened : ∀ fd f, job.target = some (fd, f) → s.openedFile fd = some f)
    (narrow : ∀ f n, job.cut s = some (f, n) → s.Narrow f n)
    (ranged : ∀ fd f need, job.target = some (fd, f) → job.planned = some need →
      s.InBlocks f job.offset need)
    (taken : job.next s env = some (s', job')) :
    (∃ lost, Coherent s' lost) ∧ KeepsEntries s s' (job.Gone s) ∧ Goes s' job job' := by
  have quietly {t : FileSystem} (quiet : Quiet s t) (homes : t.dirSide = s.dirSide) :
      (∃ lost, Coherent t lost) ∧ KeepsEntries s t (job.Gone s) :=
    ⟨⟨lost, quiet.coherent coherent (coherent.housed.of_dirSide homes)⟩, quiet.keepsEntries⟩
  have refused (e : Errno) : (∃ lost, Coherent { s with errno := e } lost) ∧
      KeepsEntries s { s with errno := e } (job.Gone s) := quietly (.of_fileSide rfl) rfl
  have ended {t : FileSystem} : Goes t job .done := by
    constructor <;> simp [Job.target]
  cases job with
  | reading l =>
    dsimp only [Job.next] at taken
    split at taken
    · simp at taken
    next t l' moved =>
    obtain ⟨rfl, rfl⟩ := Prod.mk.inj (Option.some.inj taken)
    obtain ⟨quiet, homes, goes⟩ := reading_goes coherent (opened _ _ rfl) (ranged _ _ · rfl) moved
    have after := quietly quiet homes
    exact ⟨after.1, after.2, goes⟩
  | writing l =>
    dsimp only [Job.next] at taken
    split at taken
    · simp at taken
    next t l' moved =>
    obtain ⟨rfl, rfl⟩ := Prod.mk.inj (Option.some.inj taken)
    exact writing_goes coherent ok (opened _ _ rfl) narrow (ranged _ _ · rfl) moved
  | unlinking path =>
    obtain ⟨rfl, rfl⟩ := Prod.mk.inj (Option.some.inj taken)
    have change : Change False s (s.unlink env path).1 := unlink_change coherent ok path
    exact ⟨⟨lost, change.coherent coherent⟩, change.keepsEntries coherent (unlink_outer path), ended⟩
  | truncatingPath path size =>
    dsimp only [Job.next] at taken
    split at taken
    · simp at taken
    next t r run =>
    obtain ⟨rfl, rfl⟩ := Prod.mk.inj (Option.some.inj taken)
    unfold truncatePath at run
    split at run
    · obtain ⟨rfl, rfl⟩ := Prod.mk.inj (Except.ok.inj run)
      have after := refused ENOENT
      exact ⟨after.1, after.2, ended⟩
    · next f found =>
      have cuts : (Job.truncatingPath path size).cut s = some (f, toU64 size) := by
        simp only [Job.cut, ftruncateCall, found]
      obtain ⟨dir, name, _, entry⟩ := getCreatedFile_ok found
      have after := truncating_keeps coherent ok (.inr ⟨_, entry⟩) cuts (narrow _ _ cuts) run
      exact ⟨after.1, after.2, ended⟩
  | truncatingFd fd size =>
    dsimp only [Job.next] at taken
    split at taken
    · simp at taken
    next t r run =>
    obtain ⟨rfl, rfl⟩ := Prod.mk.inj (Option.some.inj taken)
    unfold truncateFd at run
    split at run
    · obtain ⟨rfl, rfl⟩ := Prod.mk.inj (Except.ok.inj run)
      have after := refused ENOENT
      exact ⟨after.1, after.2, ended⟩
    · next o found =>
      have here := getOpenFile_ok found
      have cuts : (Job.truncatingFd fd size).cut s = some (o.file, toU64 size) := by
        simp only [Job.cut, ftruncateCall, here, Option.map_some]
      have after := truncating_keeps coherent ok (.inl ⟨_, here⟩) cuts (narrow _ _ cuts) run
      exact ⟨after.1, after.2, ended⟩
  | done => simp [Job.next] at taken

end Steps

end Job

namespace Jobs
open FileSystem Job

variable {Tid : Type*}

abbrev Config (Tid : Type*) := Interleaving.Config Tid FileSystem Job

/-- All threads are about to start; the transfers among them have open descriptors. -/
structure Start [Crc32] (c : Config Tid) : Prop where
  reach : Reachable NarrowCall c.shared
  fresh : ∀ t, (c.threads t).pending = []
  opened : ∀ t fd f, (c.threads t).target = some (fd, f) → c.shared.openedFile fd = some f

/-- A step that cuts its file gives up no block that a transfer on it has planned and not touched yet,
and a transfer plans inside the blocks that its file lists. -/
structure Careful (c : Config Tid) (t : Tid) : Prop where
  narrow : ∀ f n, (c.threads t).cut c.shared = some (f, n) → c.shared.Narrow f n
  spared : ∀ f n, (c.threads t).cut c.shared = some (f, n) → c.shared.Shortens f n →
    ∀ t' fd, (c.threads t').target = some (fd, f) → ∀ block ∈ (c.threads t').pending,
      ((c.threads t').offset + block.bufferOffset) / kBlockSize < n / kBlockSize
  ranged : ∀ fd f need, (c.threads t).target = some (fd, f) → (c.threads t).planned = some need →
    c.shared.InBlocks f (c.threads t).offset need

/-- Whatever block a transfer is about to touch, its bytes are those of a block that the file lists, and
that is neither free nor listed by another file. -/
def Isolated (c : Config Tid) : Prop :=
  ∀ t fd f block blocks, (c.threads t).target = some (fd, f) → (c.threads t).pending = block :: blocks →
    (∃ i, i + block.size ≤ kBlockSize ∧ block.devOffset = c.shared.devOffset block.blockId i) ∧
      block.blockId ∈ c.shared.blockIds f ∧ block.blockId ∉ c.shared.blockIdPool ∧
      ∀ g < c.shared.nextFile, g ≠ f → block.blockId ∉ c.shared.blockIds g

/-- What holds between the steps of the threads. -/
structure Keeping [Crc32] (c : Config Tid) : Prop where
  coherent : ∃ lost, Coherent c.shared lost
  opened : ∀ t fd f, (c.threads t).target = some (fd, f) → c.shared.openedFile fd = some f
  holds : ∀ t fd f, (c.threads t).target = some (fd, f) → ∀ block ∈ (c.threads t).pending,
    c.shared.Holds f (c.threads t).offset block

section Run
variable [Crc32] [DecidableEq Tid] {c c' : Config Tid} {event : Tid × Env}

omit [DecidableEq Tid] in
theorem Start.keeping (start : Start c) : Keeping c where
  coherent := start.reach.coherent
  opened := start.opened
  holds t fd f _ block member := by
    rw [start.fresh t] at member
    exact absurd member List.not_mem_nil

/-- A careful step keeps what the transfers rely on. -/
theorem Keeping.step (keeping : Keeping c) (ok : event.2.IoOk) (careful : Careful c event.1)
    (step : Interleaving.Step next c event c') : Keeping c' := by
  obtain ⟨t, env⟩ := event
  obtain ⟨s', job', taken, rfl⟩ := step
  obtain ⟨lost, coherent⟩ := keeping.coherent
  obtain ⟨coherent', keeps, goes⟩ :=
    next_goes coherent ok (keeping.opened t) careful.narrow careful.ranged taken
  -- A block that was pending in any thread keeps its entry: the step spares it.
  have still {u : Tid} {fd : Nat} {f : FilePtr} (target : (c.threads u).target = some (fd, f))
      {block : BlockData} (member : block ∈ (c.threads u).pending) :
      s'.Holds f (c.threads u).offset block := by
    refine (keeping.holds u fd f target block member).keeps keeps (keeping.opened u fd f target) ?_
    rintro ⟨n, cuts, shortens, behind⟩
    have before := careful.spared f n cuts shortens u fd target block member
    omega
  refine ⟨coherent', fun u fd f target => ?_, fun u fd f target block member => ?_⟩
  · dsimp only at target ⊢
    rw [keeps.opened]
    by_cases here : u = t
    · subst here
      rw [Function.update_self] at target
      exact keeping.opened u fd f (goes.target fd f target)
    · rw [Function.update_of_ne here] at target
      exact keeping.opened u fd f target
  · dsimp only at target member ⊢
    by_cases here : u = t
    · subst here
      rw [Function.update_self] at target member ⊢
      rw [goes.offset fd f target]
      rcases goes.pending fd f target block member with old | fresh
      · exact still (goes.target fd f target) old
      · exact fresh
    · rw [Function.update_of_ne here] at target member ⊢
      exact still target member

/-- In every interleaving of careful steps, each transfer touches blocks of its own file only. -/
theorem isolated (reach : Interleaving.Reached next Start
    (fun c event => event.2.IoOk ∧ Careful c event.1) c) : Isolated c := by
  have keeping : Keeping c := by
    refine reach.invariant Keeping (fun c start => start.keeping) ?_
    exact fun c event c' keeping guard step => keeping.step guard.1 guard.2 step
  intro t fd f block blocks target pending
  obtain ⟨lost, coherent⟩ := keeping.coherent
  have bound := coherent.registered.bound (coherent.registered.opens fd f (keeping.opened t fd f target))
  have holds := keeping.holds t fd f target block (by simp [pending])
  have listed := List.mem_of_getElem? holds.listed
  refine ⟨holds.address, listed, coherent.consistent.blockIds_not_free bound listed, ?_⟩
  intro g below apart there
  exact apart (coherent.consistent.blockIds_unique below bound there listed)

end Run

section Concrete

instance (s : FileSystem) (f : FilePtr) (offset size : Nat) : Decidable (s.InBlocks f offset size) :=
  inferInstanceAs (Decidable (_ ∨ _))

/-- Decides whether a thread cuts no file and plans inside its blocks. -/
def isCareful (c : Config Bool) (t : Bool) : Bool :=
  (match (c.threads t).cut c.shared with
  | none => true
  | some (f, n) => decide ((c.shared.fileMeta f).size ≤ n ∧ c.shared.Narrow f n)) &&
  match (c.threads t).target, (c.threads t).planned with
  | some (_, f), some need => decide (c.shared.InBlocks f (c.threads t).offset need)
  | _, _ => true

theorem isCareful_sound {c : Config Bool} {t : Bool} (passed : isCareful c t = true) : Careful c t := by
  rw [isCareful, Bool.and_eq_true] at passed
  obtain ⟨cuts, ranged⟩ := passed
  have grows (f : FilePtr) (n : Nat) (here : (c.threads t).cut c.shared = some (f, n)) :
      (c.shared.fileMeta f).size ≤ n ∧ c.shared.Narrow f n := by
    rw [here] at cuts
    exact of_decide_eq_true cuts
  refine ⟨fun f n here => (grows f n here).2, fun f n here shortens => ?_, fun fd f need target planned => ?_⟩
  · have longer := (grows f n here).1
    have shorter := shortens.1
    omega
  · rw [target, planned] at ranged
    exact of_decide_eq_true ranged

/-- A file of one byte, a thread that writes it, and one that truncates through `fd` to `size` bytes. -/
def beside (fd size : Int) (s : FileSystem) : Config Bool where
  shared := s
  threads second :=
    if second then .truncatingFd fd size
    else .writing { fd := 0, file := 0, buffer := fun _ => 7, size := 1, offset := 0, phase := .entered }

/-- Two files of which the first has a byte, and the turns of the two threads followed to their end. -/
theorem exists_beside (guard : Config Bool → Bool → Bool) (fd size : Int) (turns : List Bool)
    (goal : Config Bool → Prop) [DecidablePred goal]
    (found : ((@runOps zeroCrc steadyEnv isNarrowCall
      [.openFile ['/', 'a'] 0o102, .openFile ['/', 'b'] 0o102, .truncateFd 0 1]
      (freshDevice 8 fun _ => 0)).any fun s => s.openedFile 0 = some 0 &&
        (Transition.runList (Interleaving.attempt (@next zeroCrc) fun c event => guard c event.1 = true)
          (turns.map (·, steadyEnv)) (beside fd size s)).toOption.any fun c => goal c) = true) :
    ∃ c, Interleaving.Reached (@next zeroCrc) (@Start Bool zeroCrc)
      (fun c event => event.2.IoOk ∧ guard c event.1 = true) c ∧ goal c := by
  let _ := zeroCrc
  obtain ⟨s, reach, passed⟩ := Reachable.exists_run
    [.openFile ['/', 'a'] 0o102, .openFile ['/', 'b'] 0o102, .truncateFd 0 1]
    (fun s => (s.openedFile 0 = some 0 &&
      (Transition.runList (Interleaving.attempt next fun c event => guard c event.1 = true)
        (turns.map (·, steadyEnv)) (beside fd size s)).toOption.any fun c => goal c) = true)
    (freshDevice_fresh 8 fun _ => 0) steadyEnv_ok isNarrowCall_sound (by simpa using found)
  rw [Bool.and_eq_true, decide_eq_true_eq] at passed
  obtain ⟨opened, run⟩ := passed
  have start : Start (beside fd size s) := by
    refine ⟨reach, fun t => ?_, fun t fd' f target => ?_⟩
    · cases t <;> rfl
    · cases t with
      | false =>
        obtain ⟨rfl, rfl⟩ := Prod.mk.inj (Option.some.inj target)
        exact opened
      | true => simp [Job.target, beside] at target
  refine Transition.Reaches.exists_of_runList (.start start) _ (fun event member c c' taken => ?_) goal run
  obtain ⟨_, _, rfl⟩ := List.mem_map.mp member
  obtain ⟨allowed, step⟩ := Interleaving.attempt_sound taken
  exact ⟨⟨steadyEnv_ok, allowed⟩, step⟩

/-- The second file grows while the write has a block planned. -/
theorem isolated_beside : ∃ c : Config Bool, (c.threads false).pending ≠ [] ∧
    (c.shared.fileMeta 1).size = 1 ∧ Isolated c := by
  let _ := zeroCrc
  obtain ⟨c, reach, pending, size⟩ := exists_beside isCareful 1 1 [false, false, true]
    (fun c => (c.threads false).pending.length = 1 ∧ (c.shared.fileMeta 1).size = 1) (by decide +kernel)
  refine ⟨c, fun none => by simp [none] at pending, size, isolated (reach.mono fun c event allowed => ?_)⟩
  exact ⟨allowed.1, isCareful_sound allowed.2⟩

/-- The file is cut to nothing while the write has its block planned: the write touches a free block. -/
theorem not_isolated : ∃ c, Interleaving.Reached (@next zeroCrc) (@Start Bool zeroCrc)
    (fun _ event => event.2.IoOk) c ∧ (c.threads false).target = some (0, 0) ∧
      (c.threads false).pending.length = 1 ∧
      (∀ block ∈ (c.threads false).pending, block.blockId ∈ c.shared.blockIdPool) ∧ ¬Isolated c := by
  obtain ⟨c, reach, target, one, free⟩ := exists_beside (fun _ _ => true) 0 0 [false, false, true]
    (fun c => (c.threads false).target = some (0, 0) ∧ (c.threads false).pending.length = 1 ∧
      ∀ block ∈ (c.threads false).pending, block.blockId ∈ c.shared.blockIdPool) (by decide +kernel)
  refine ⟨c, reach.mono fun c event allowed => allowed.1, target, one, free, fun isolated => ?_⟩
  obtain ⟨block, pending⟩ := List.length_eq_one_iff.mp one
  exact (isolated false 0 0 block [] target pending).2.2.1 (free block (by simp [pending]))

end Concrete

end Jobs

end BlockFs
