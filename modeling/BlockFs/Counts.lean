import BlockFs.Assertions
import BlockFs.Lib.Sweep

namespace BlockFs

open Sweep

/-- The bounds check of `PreadCache` and `PwriteCache`, and behind it `preadFull` or `pwriteFull`,
which moves at most the bytes asked for. -/
def Disk.answer (d : Disk) (device : Answer) (block : BlockData) : Answer :=
  if d.size < (block.devOffset + block.size) % 2 ^ 64 then { moved := 0, failed := true }
  else { device with moved := min device.moved block.size }

def BlockData.piece (block : BlockData) : Segment :=
  { start := block.bufferOffset, target := block.devOffset, length := block.size }

/-- The transfer loop of `ReadData` and `WriteData` over a device that may move less than it is asked
for, with the pieces it got to. `device` answers for the blocks in turn, and `move` is what moving
the bytes of a block does. -/
def transferBlocks {α : Type} (d : Disk) (device : Nat → Answer) (move : BlockData → α → α) :
    Nat → List BlockData → α → Except Fault (α × List (Segment × Answer) × Int)
  | _, [], x => .ok (x, [], 0)
  | i, block :: blocks, x =>
    if kBlockLockNum ≤ block.blockId then .error .blockLock
    else
      let answer := d.answer (device i) block
      let x := move { block with size := answer.moved } x
      if answer.value ≤ 0 then .ok (x, [(block.piece, answer)], 0)
      else do
        let (x, trace, ret) ← transferBlocks d device move (i + 1) blocks x
        .ok (x, (block.piece, answer) :: trace, answer.value + ret)

/-- The pieces of a plan with the answers of the device. -/
def Disk.answers (d : Disk) (device : Nat → Answer) : Nat → List BlockData → List (Segment × Answer)
  | _, [] => []
  | i, block :: blocks => (block.piece, d.answer (device i) block) :: d.answers device (i + 1) blocks

/-- A device that moves every block in full. -/
def wholeBlocks (_ : Nat) : Answer := { moved := kBlockSize, failed := false }

/-- The device address of a byte whose block a file block lists, the block index narrowed to 32 bits. -/
def narrowAddress (super : SuperBlockMeta) (m : FileBlockMeta) (position : Nat) : Nat :=
  super.blockDataStartOffset + super.blockSize * m.blockId (position / kBlockSize % 2 ^ 32) +
    position % kBlockSize

namespace FileSystem

/-- `FileReader::ReadData` over such a device. -/
def readDataOn (s : FileSystem) (fd : Nat) (o : OpenFile) (device : Nat → Answer) (buffer : Nat → UInt8)
    (size offset : Nat) :
    Except Fault (FileSystem × (Nat → UInt8) × List (Segment × Answer) × Int) :=
  match s.getFileBlock o.file 0 with
  | none => .ok (s, buffer, [], -1)
  | some b => do
    let blocks ← planTransfer s.superMeta (s.fileBlockMetas b) size offset
    let (buffer, trace, ret) ←
      transferBlocks s.disk device (·.filled s.disk.data) 0 blocks buffer
    .ok (s.advance fd o ret, buffer, trace, ret)

/-- `FileWriter::WriteData` over such a device. -/
def writeDataOn (s : FileSystem) (fd : Nat) (o : OpenFile) (device : Nat → Answer) (buffer : Nat → UInt8)
    (size offset : Nat) : Except Fault (FileSystem × List (Segment × Answer) × Int) :=
  match s.getFileBlock o.file 0 with
  | none => .error .nullFileBlock
  | some b => do
    let blocks ← planTransfer s.superMeta (s.fileBlockMetas b) size offset
    let (data, trace, ret) ← transferBlocks s.disk device (·.onto buffer) 0 blocks s.disk.data
    .ok ({ s with disk := { s.disk with data := data } }.advance fd o ret, trace, ret)

/-- `OpenFile::pread` over such a device. -/
def preadOn (s : FileSystem) (fd : Nat) (o : OpenFile) (device : Nat → Answer) (buffer : Nat → UInt8)
    (size offset : Nat) :
    Except Fault (FileSystem × (Nat → UInt8) × List (Segment × Answer) × Int) :=
  let fileSize := (s.fileMeta o.file).size
  if size = 0 ∨ fileSize ≤ offset then .ok (s, buffer, [], 0)
  else
    let needReadSize := if fileSize < (offset + size) % 2 ^ 64 then fileSize - offset else size
    s.readDataOn fd o device buffer needReadSize offset

/-- The growth in front of a write. -/
def growFor [Crc32] (s : FileSystem) (env : Env) (f : FilePtr) (n : Nat) : Except Fault (FileSystem × Int) :=
  if (s.fileMeta f).size < n then s.ftruncate env f n else .ok (s, 0)

/-- `OpenFile::pwrite` over such a device. -/
def pwriteOn [Crc32] (s : FileSystem) (env : Env) (fd : Nat) (o : OpenFile) (device : Nat → Answer)
    (buffer : Nat → UInt8) (size offset : Nat) :
    Except Fault (FileSystem × List (Segment × Answer) × Int) :=
  if size = 0 then .ok (s, [], 0)
  else do
    let (s, ret) ← s.growFor env o.file ((offset + size) % 2 ^ 64)
    if ret < 0 then .ok (s, [], -1)
    else
      let s := if env.now % 2 = 0 then s.updateTimeStamp o.file env.now else s
      s.writeDataOn fd o device buffer size offset

/-- The device address of a byte of a file. -/
def fileAddress (s : FileSystem) (f : FilePtr) (position : Nat) : Option Nat :=
  (s.getFileBlock f 0).map fun b => narrowAddress s.superMeta (s.fileBlockMetas b) position

/-- A count that is not negative says which bytes were moved, and a device that failed before any was
moved is noticed. -/
structure Truthful (s : FileSystem) (f : FilePtr) (len offset : Nat) (trace : List (Segment × Answer))
    (ret : Int) : Prop where
  most : 0 ≤ ret → ret ≤ len
  exactly : 0 ≤ ret → {c | ∃ step ∈ trace, c ∈ step.1.cells step.2.moved} =
    {c | (c.1 : Int) < ret ∧ s.fileAddress f (offset + c.1) = some c.2}
  noticed : (∃ step ∈ trace, step.2.failed = true) →
    (∀ step ∈ trace, step.2.moved = 0) → ret < 0

end FileSystem

section Loop
variable {d : Disk} {device : Nat → Answer} {i : Nat} {blocks : List BlockData}

theorem Disk.answer_moved (d : Disk) (device : Answer) (block : BlockData) :
    (d.answer device block).moved ≤ block.size := by
  unfold Disk.answer
  split
  · exact Nat.zero_le _
  · exact Nat.min_le_right _ _

theorem Disk.answers_fst (d : Disk) (device : Nat → Answer) (i : Nat) (blocks : List BlockData) :
    (d.answers device i blocks).map Prod.fst = blocks.map BlockData.piece := by
  induction blocks generalizing i with
  | nil => rfl
  | cons block blocks ih =>
    rw [answers, List.map_cons, List.map_cons, ih]

theorem Disk.answers_bounded (d : Disk) (device : Nat → Answer) (i : Nat) (blocks : List BlockData) :
    Bounded (d.answers device i blocks) := by
  induction blocks generalizing i with
  | nil => exact nofun
  | cons block blocks ih =>
    rintro step (_ | ⟨_, later⟩)
    · exact d.answer_moved (device i) block
    · exact ih (i + 1) step later

/-- A loop that ends got to the pieces a sweep gets to, and reports their sum. -/
theorem transferBlocks_sweep {α : Type} {move : BlockData → α → α} {x y : α}
    {trace : List (Segment × Answer)} {ret : Int}
    (done : transferBlocks d device move i blocks x = .ok (y, trace, ret)) :
    trace = attempted (d.answers device i blocks) ∧ ret = total (d.answers device i blocks) := by
  induction blocks generalizing i x trace ret with
  | nil =>
    obtain ⟨_, rfl, rfl⟩ := Prod.mk.inj (Except.ok.inj done)
    exact ⟨rfl, rfl⟩
  | cons block blocks ih =>
    unfold transferBlocks at done
    unfold Disk.answers
    split at done
    · simp at done
    dsimp only at done
    unfold attempted total
    split at done
    · next stop =>
      obtain ⟨_, same⟩ := Prod.mk.inj (Except.ok.inj done)
      obtain ⟨rfl, rfl⟩ := Prod.mk.inj same
      rw [if_neg (Int.not_lt.mpr stop), if_neg (Int.not_lt.mpr stop)]
      exact ⟨rfl, rfl⟩
    · next go =>
      obtain ⟨⟨z, rest, sum⟩, later, done⟩ := Except.bind_eq_ok.mp done
      obtain ⟨rfl, same⟩ := Prod.mk.inj (Except.ok.inj done)
      obtain ⟨rfl, rfl⟩ := Prod.mk.inj same
      obtain ⟨rfl, rfl⟩ := ih later
      rw [if_pos (Int.not_le.mp go), if_pos (Int.not_le.mp go)]
      exact ⟨rfl, rfl⟩

end Loop

section Plan
variable {super : SuperBlockMeta} {m : FileBlockMeta} {offset size : Nat}

/-- A plan covers its range, and stays inside the table. -/
theorem planBlocks_covers {fuel curr index inBlock : Nat} {blocks : List BlockData}
    (planned : planBlocks super m size fuel curr index inBlock = .ok blocks) (less : curr < size)
    (block_ : index = (offset + curr) / kBlockSize % 2 ^ 32)
    (byte : inBlock = (offset + curr) % kBlockSize) (first : 0 < inBlock → curr = 0) :
    Covers (fun i => narrowAddress super m (offset + i)) size curr (blocks.map BlockData.piece) ∧
      index * kBlockSize + inBlock + (size - curr) ≤ kFileBlockCapacity * kBlockSize := by
  induction fuel generalizing curr index inBlock blocks with
  | zero => simp [planBlocks] at planned
  | succ fuel ih =>
    unfold planBlocks at planned
    obtain ⟨id, entry, planned⟩ := Except.bind_eq_ok.mp planned
    have here : id = m.blockId index ∧ index < kFileBlockCapacity := by
      unfold FileBlockMeta.getBlockId at entry
      split at entry
      · next inside => exact ⟨(Except.ok.inj entry).symm, inside⟩
      · simp at entry
    obtain ⟨rfl, inside⟩ := here
    dsimp only at planned
    generalize count : (if 0 < inBlock then min size (kBlockSize - inBlock)
      else min (size - curr) kBlockSize) = n at planned
    have short := Nat.mod_lt (offset + curr) kBlockSize_positive
    have extent : 0 < n ∧ inBlock + n ≤ kBlockSize ∧ curr + n ≤ size ∧
        (curr + n < size → inBlock + n = kBlockSize) := by
      have positive := kBlockSize_positive
      split at count
      · next middle =>
        have start := first middle
        omega
      · next aligned => omega
    obtain ⟨positive, fits, ends, full⟩ := extent
    have at_ (i : Nat) (within : i < n) : narrowAddress super m (offset + (curr + i)) =
        super.blockDataStartOffset + super.blockSize * m.blockId index + inBlock + i := by
      have whole := Nat.div_add_mod (offset + curr) kBlockSize
      have split : offset + (curr + i) =
          inBlock + i + kBlockSize * ((offset + curr) / kBlockSize) := by omega
      have low : inBlock + i < kBlockSize := by omega
      rw [narrowAddress, split, Nat.add_mul_div_left _ _ kBlockSize_positive, Nat.div_eq_of_lt low,
        Nat.zero_add, ← block_, Nat.add_mul_mod_self_left, Nat.mod_eq_of_lt low]
      omega
    have capacity : kFileBlockCapacity = 1000 := rfl
    have room : index * kBlockSize + kBlockSize ≤ kFileBlockCapacity * kBlockSize := by
      rw [← Nat.succ_mul]
      exact Nat.mul_le_mul_right _ inside
    split at planned
    · next enough =>
      obtain rfl := Except.ok.inj planned
      obtain rfl : curr + n = size := by omega
      exact ⟨.more rfl positive at_ .done, by omega⟩
    · next goes =>
      obtain ⟨rest, later, planned⟩ := Except.bind_eq_ok.mp planned
      obtain rfl := Except.ok.inj planned
      have filled := full (by omega)
      have step : offset + (curr + n) = kBlockSize * ((offset + curr) / kBlockSize + 1) := by
        have whole := Nat.div_add_mod (offset + curr) kBlockSize
        rw [Nat.mul_succ]
        omega
      have next_ : index + 1 = (offset + (curr + n)) / kBlockSize % 2 ^ 32 := by
        rw [step, Nat.mul_div_cancel_left _ kBlockSize_positive]
        omega
      have aligned : 0 = (offset + (curr + n)) % kBlockSize := by rw [step, Nat.mul_mod_right]
      obtain ⟨covers, inside_⟩ := ih later (by omega) next_ aligned
        fun impossible => absurd impossible (Nat.lt_irrefl 0)
      rw [Nat.succ_mul] at inside_
      exact ⟨.more rfl positive at_ covers, by omega⟩

theorem planTransfer_covers {blocks : List BlockData}
    (planned : planTransfer super m size offset = .ok blocks) (positive : 0 < size) :
    Covers (fun i => narrowAddress super m (offset + i)) size 0 (blocks.map BlockData.piece) ∧
      offset / kBlockSize % 2 ^ 32 * kBlockSize + offset % kBlockSize + size ≤
        kFileBlockCapacity * kBlockSize :=
  planBlocks_covers planned positive rfl rfl fun _ => rfl

theorem planBlocks_size {fuel curr index inBlock : Nat} {blocks : List BlockData}
    (planned : planBlocks super m size fuel curr index inBlock = .ok blocks) :
    ∀ block ∈ blocks, block.size ≤ kBlockSize := by
  induction fuel generalizing curr index inBlock blocks with
  | zero => simp [planBlocks] at planned
  | succ fuel ih =>
    unfold planBlocks at planned
    obtain ⟨id, _, planned⟩ := Except.bind_eq_ok.mp planned
    have small : (if 0 < inBlock then min size (kBlockSize - inBlock)
        else min (size - curr) kBlockSize) ≤ kBlockSize := by split <;> omega
    dsimp only at planned
    generalize (if 0 < inBlock then min size (kBlockSize - inBlock)
      else min (size - curr) kBlockSize) = n at planned small
    split at planned
    · obtain rfl := Except.ok.inj planned
      intro block member
      rw [List.mem_singleton.mp member]
      exact small
    · obtain ⟨rest, later, planned⟩ := Except.bind_eq_ok.mp planned
      obtain rfl := Except.ok.inj planned
      intro block member
      rcases List.mem_cons.mp member with rfl | there
      · exact small
      · exact ih later block there

end Plan

section Bytes
variable {d : Disk} {device : Nat → Answer} {address : Nat → Nat} {last curr i : Nat}
  {blocks : List BlockData}

/-- The buffer behind a loop of reads holds the bytes of the addresses that were moved to it, and is as
it was elsewhere. -/
theorem transferBlocks_filled {buffer back : Nat → UInt8} {trace : List (Segment × Answer)} {ret : Int}
    (covers : Covers address last curr (blocks.map BlockData.piece))
    (done : transferBlocks d device (·.filled d.data) i blocks buffer = .ok (back, trace, ret)) (k : Nat) :
    (∀ x, (k, x) ∈ moved (d.answers device i blocks) → back k = d.data x) ∧
      ((∀ x, (k, x) ∉ moved (d.answers device i blocks)) → back k = buffer k) := by
  induction blocks generalizing i curr buffer trace ret with
  | nil =>
    obtain ⟨rfl, _⟩ := Prod.mk.inj (Except.ok.inj done)
    simp [Disk.answers]
  | cons block blocks ih =>
    cases covers with
    | more start positive at_ behind =>
      have bound := d.answer_moved (device i) block
      have first (x : Nat) : (k, x) ∈ block.piece.cells (d.answer (device i) block).moved ↔
          block.bufferOffset ≤ k ∧ k < block.bufferOffset + (d.answer (device i) block).moved ∧
            x = block.devOffset + (k - block.bufferOffset) := Segment.mem_cells
      have here : ({ block with size := (d.answer (device i) block).moved } : BlockData).filled d.data
          buffer k = if block.bufferOffset ≤ k ∧
            k < block.bufferOffset + (d.answer (device i) block).moved then
              d.data (block.devOffset + (k - block.bufferOffset)) else buffer k := rfl
      unfold transferBlocks at done
      rw [Disk.answers]
      split at done
      · simp at done
      dsimp only at done
      split at done
      · next stop =>
        obtain ⟨rfl, _⟩ := Prod.mk.inj (Except.ok.inj done)
        rw [moved_stop (Int.not_lt.mpr stop), here]
        constructor
        · intro x member
          obtain ⟨low, high, rfl⟩ := (first x).mp member
          rw [if_pos ⟨low, high⟩]
        · intro none
          exact if_neg fun ⟨low, high⟩ => none _ ((first _).mpr ⟨low, high, rfl⟩)
      · next go =>
        obtain ⟨⟨z, rest, sum⟩, later, done⟩ := Except.bind_eq_ok.mp done
        obtain ⟨rfl, _⟩ := Prod.mk.inj (Except.ok.inj done)
        obtain ⟨filled, kept⟩ := ih behind later
        rw [here] at kept
        have after : Covers address last (curr + block.piece.length)
            ((d.answers device (i + 1) blocks).map Prod.fst) := by
          rw [d.answers_fst]
          exact behind
        have begins : block.bufferOffset = curr := start
        have length : block.piece.length = block.size := rfl
        rw [moved_go (Int.not_le.mp go)]
        constructor
        · rintro x (member | member)
          · obtain ⟨low, high, rfl⟩ := (first x).mp member
            rw [kept fun y again => ?_, if_pos ⟨low, high⟩]
            have beyond := after.moved_ge again
            dsimp only at beyond
            omega
          · exact filled x member
        · intro none
          rw [kept fun x member => none x (.inr member)]
          exact if_neg fun ⟨low, high⟩ => none _ (.inl ((first _).mpr ⟨low, high, rfl⟩))

end Bytes

section Whole
variable {d : Disk} {blocks : List BlockData} {i : Nat}

theorem BlockData.filled_none (block : BlockData) (data buffer : Nat → UInt8) :
    { block with size := 0 }.filled data buffer = buffer := by
  funext i
  refine if_neg ?_
  rintro ⟨low, high⟩
  dsimp only at low high
  omega

theorem BlockData.onto_none (block : BlockData) (buffer data : Nat → UInt8) :
    { block with size := 0 }.onto buffer data = data := by
  funext x
  refine if_neg ?_
  rintro ⟨low, high⟩
  dsimp only at low high
  omega

theorem Disk.answer_whole {block : BlockData} (small : block.size ≤ kBlockSize) :
    d.answer (wholeBlocks i) block =
      if d.size < (block.devOffset + block.size) % 2 ^ 64 then { moved := 0, failed := true }
      else { moved := block.size, failed := false } := by
  unfold Disk.answer wholeBlocks
  rw [Nat.min_eq_right small]

/-- Over a device that moves whole blocks the loop is that of `readBlocks`. -/
theorem transferBlocks_read (small : ∀ block ∈ blocks, block.size ≤ kBlockSize)
    (buffer : Nat → UInt8) :
    (transferBlocks d wholeBlocks (·.filled d.data) i blocks buffer).map (fun out => (out.1, out.2.2)) =
      readBlocks d blocks buffer := by
  induction blocks generalizing i buffer with
  | nil => rfl
  | cons block blocks ih =>
    have later (buffer : Nat → UInt8) := @ih (i + 1) (fun b member => small b (by simp [member])) buffer
    rw [transferBlocks, readBlocks, Disk.answer_whole (small block (by simp)), Disk.preadCache]
    split
    · rfl
    · split
      · dsimp only
        rw [BlockData.filled_none]
        rfl
      · have value : Answer.value { moved := block.size, failed := false } = block.size := rfl
        have there := later (block.filled d.data buffer)
        dsimp only
        rw [value, show (fun i => if block.bufferOffset ≤ i ∧ i < block.bufferOffset + block.size then
          d.data (block.devOffset + (i - block.bufferOffset)) else buffer i) =
          block.filled d.data buffer from rfl, ← there]
        split
        · rfl
        · cases transferBlocks d wholeBlocks (·.filled d.data) (i + 1) blocks
            (block.filled d.data buffer) <;> rfl

theorem transferBlocks_congr {α : Type} {d' : Disk} (same : d'.size = d.size) (device : Nat → Answer)
    (move : BlockData → α → α) (x : α) :
    transferBlocks d' device move i blocks x = transferBlocks d device move i blocks x := by
  have answer (a : Answer) (block : BlockData) : d'.answer a block = d.answer a block := by
    rw [Disk.answer, Disk.answer, same]
  induction blocks generalizing i x with
  | nil => rfl
  | cons block blocks ih => simp only [transferBlocks, answer, ih]

/-- And that of `writeBlocks`. -/
theorem transferBlocks_write (small : ∀ block ∈ blocks, block.size ≤ kBlockSize)
    (buffer : Nat → UInt8) :
    (transferBlocks d wholeBlocks (·.onto buffer) i blocks d.data).map
        (fun out => ({ d with data := out.1 }, out.2.2)) = writeBlocks buffer blocks d := by
  induction blocks generalizing i d with
  | nil => rfl
  | cons block blocks ih =>
    have later (d : Disk) := @ih d (i + 1) (fun b member => small b (by simp [member]))
    rw [transferBlocks, writeBlocks, Disk.answer_whole (small block (by simp)), Disk.pwriteCache]
    split
    · rfl
    · split
      · dsimp only
        rw [BlockData.onto_none]
        rfl
      · have value : Answer.value { moved := block.size, failed := false } = block.size := rfl
        have there := later { d with data := block.onto buffer d.data }
        have answers := @transferBlocks_congr d blocks (i + 1) _
          { d with data := block.onto buffer d.data } rfl wholeBlocks (·.onto buffer)
          (block.onto buffer d.data)
        dsimp only at there answers ⊢
        rw [answers] at there
        rw [value, show (fun x => if block.devOffset ≤ x ∧ x < block.devOffset + block.size then
          buffer (block.bufferOffset + (x - block.devOffset)) else d.data x) = block.onto buffer d.data
          from rfl, ← there]
        split
        · rfl
        · cases transferBlocks d wholeBlocks (·.onto buffer) (i + 1) blocks
            (block.onto buffer d.data) <;> rfl

end Whole

namespace FileSystem

/-- The device fails on no block before it has moved a byte, or after it has moved some bytes of the
block, and moves nothing of the block behind one it moved short. -/
structure Steady (d : Disk) (device : Nat → Answer) (blocks : List BlockData) : Prop where
  orderly : Orderly (d.answers device 0 blocks)
  starts : ∀ first ∈ (d.answers device 0 blocks).head?, first.2.failed = false

section Whole
variable {s : FileSystem} {fd size offset : Nat} {o : OpenFile} {buffer : Nat → UInt8}

/-- Over a device that moves whole blocks a read is `pread`. -/
theorem preadOn_whole : (s.preadOn fd o wholeBlocks buffer size offset).map
    (fun out => (out.1, out.2.1, out.2.2.2)) = s.pread fd o buffer size offset := by
  unfold preadOn pread
  dsimp only
  split
  · rfl
  · generalize (if (s.fileMeta o.file).size < (offset + size) % 2 ^ 64 then
      (s.fileMeta o.file).size - offset else size) = n
    unfold readDataOn readData
    cases s.getFileBlock o.file 0 with
    | none => rfl
    | some b =>
      dsimp only
      cases planned : planTransfer s.superMeta (s.fileBlockMetas b) n offset with
      | error => rfl
      | ok blocks =>
        rw [Except.ok_bind, Except.ok_bind, ← transferBlocks_read (planBlocks_size planned) buffer]
        cases transferBlocks s.disk wholeBlocks (·.filled s.disk.data) 0 blocks buffer <;> rfl

theorem pwriteOn_whole [Crc32] {env : Env} :
    (s.pwriteOn env fd o wholeBlocks buffer size offset).map (fun out => (out.1, out.2.2)) =
      s.pwrite env fd o buffer size offset := by
  have moves (u : FileSystem) : (u.writeDataOn fd o wholeBlocks buffer size offset).map
      (fun out => (out.1, out.2.2)) = u.writeData fd o buffer size offset := by
    unfold writeDataOn writeData
    cases u.getFileBlock o.file 0 with
    | none => rfl
    | some b =>
      dsimp only
      cases planned : planTransfer u.superMeta (u.fileBlockMetas b) size offset with
      | error => rfl
      | ok blocks =>
        rw [Except.ok_bind, Except.ok_bind, ← transferBlocks_write (planBlocks_size planned) buffer]
        cases transferBlocks u.disk wholeBlocks (·.onto buffer) 0 blocks u.disk.data <;> rfl
  unfold pwriteOn pwrite growFor
  split
  · rfl
  · have written (t : FileSystem) (r : Int) :
        (if r < 0 then Except.ok (t, [], -1) else
          (if env.now % 2 = 0 then t.updateTimeStamp o.file env.now else t).writeDataOn fd o wholeBlocks
            buffer size offset).map (fun out => (out.1, out.2.2)) =
        if r < 0 then Except.ok (t, -1) else
          (if env.now % 2 = 0 then t.updateTimeStamp o.file env.now else t).writeData fd o buffer size
            offset := by
      split
      · rfl
      · exact moves _
    split
    · cases grown : s.ftruncate env o.file ((offset + size) % 2 ^ 64) with
      | error => rfl
      | ok out => exact written out.1 out.2
    · exact written s 0

end Whole

section Transfers
variable {s : FileSystem} {f : FilePtr} {b : FileBlockPtr} {d : Disk} {device : Nat → Answer}
  {blocks : List BlockData} {size len offset : Nat} {trace : List (Segment × Answer)} {ret : Int}

theorem exactly_iff (item : s.getFileBlock f 0 = some b) (steps : List (Segment × Answer)) :
    ({c | ∃ step ∈ attempted steps, c ∈ step.1.cells step.2.moved} =
      {c | (c.1 : Int) < total steps ∧ s.fileAddress f (offset + c.1) = some c.2}) ↔
      Exact (fun i => narrowAddress s.superMeta (s.fileBlockMetas b) (offset + i)) 0 steps := by
  have target : {c : Nat × Nat | (c.1 : Int) < total steps ∧
      s.fileAddress f (offset + c.1) = some c.2} =
      {c | 0 ≤ c.1 ∧ (c.1 : Int) < (0 : Nat) + total steps ∧
        c.2 = narrowAddress s.superMeta (s.fileBlockMetas b) (offset + c.1)} := by
    have there (p : Nat) : s.fileAddress f p =
        some (narrowAddress s.superMeta (s.fileBlockMetas b) p) := by
      rw [fileAddress, item]
      rfl
    ext c
    constructor
    · rintro ⟨high, same⟩
      exact ⟨Nat.zero_le _, by omega, (Option.some.inj (there _ ▸ same)).symm⟩
    · rintro ⟨_, high, same⟩
      exact ⟨by omega, (there _).trans (congrArg some same.symm)⟩
  rw [Exact, ← target]
  rfl

/-- Where a sweep is orderly, a failure that is not counted is one on the first piece. -/
theorem noticed_iff {steps : List (Segment × Answer)} (orderly : Orderly steps) :
    ((∃ step ∈ attempted steps, step.2.failed = true) →
      (∀ step ∈ attempted steps, step.2.moved = 0) → total steps < 0) ↔
      ∀ first ∈ steps.head?, first.2.failed = false := by
  have nonneg := total_nonneg steps
  cases steps with
  | nil => simp [attempted]
  | cons step rest =>
    obtain ⟨p, a⟩ := step
    by_cases go : 0 < a.value
    · have fine : a.failed = false := by
        cases failed : a.failed with
        | false => rfl
        | true => simp [Answer.value, failed] at go
      have some_ : a.moved ≠ 0 := by
        have le := a.value_le
        omega
      constructor
      · rintro _ first here
        obtain rfl := Option.some.inj here
        exact fine
      · intro _ _ none
        exact absurd (none (p, a) (by simp [attempted])) some_
    · rw [Orderly, if_neg go] at orderly
      have only : attempted ((p, a) :: rest) = [(p, a)] := by simp [attempted, go]
      rw [only]
      constructor
      · rintro noticed first here
        obtain rfl := Option.some.inj here
        by_contra fails
        have negative := noticed ⟨(p, a), by simp, by simpa using fails⟩ (by simpa using orderly)
        omega
      · rintro starts ⟨step, member, failed⟩ _
        rw [List.mem_singleton.mp member, starts (p, a) rfl] at failed
        simp at failed

/-- The count of a planned transfer is truthful exactly when the device is steady on its blocks. -/
theorem truthful_iff {α : Type} {move : BlockData → α → α} {x y : α}
    (item : s.getFileBlock f 0 = some b)
    (planned : planTransfer s.superMeta (s.fileBlockMetas b) size offset = .ok blocks)
    (positive : 0 < size) (within : size ≤ len)
    (done : transferBlocks d device move 0 blocks x = .ok (y, trace, ret)) :
    Truthful s f len offset trace ret ↔ Steady d device blocks := by
  obtain ⟨rfl, rfl⟩ := transferBlocks_sweep done
  obtain ⟨covers, _⟩ := planTransfer_covers planned positive
  rw [← d.answers_fst device 0 blocks] at covers
  have bounded := d.answers_bounded device 0 blocks
  have nonneg := total_nonneg (d.answers device 0 blocks)
  have most := (covers.total_eq bounded).1
  constructor
  · rintro ⟨_, exactly, noticed⟩
    have orderly := (covers.exact_iff bounded).mp ((exactly_iff item _).mp (exactly nonneg))
    exact ⟨orderly, (noticed_iff orderly).mp noticed⟩
  · rintro ⟨orderly, starts⟩
    exact ⟨fun _ => by omega, fun _ => (exactly_iff item _).mpr ((covers.exact_iff bounded).mpr orderly),
      (noticed_iff orderly).mpr starts⟩

theorem Truthful.congr {s' : FileSystem} (same : s'.fileAddress f = s.fileAddress f)
    (truthful : Truthful s f len offset trace ret) : Truthful s' f len offset trace ret :=
  { truthful with exactly := same ▸ truthful.exactly }

theorem Truthful.nothing (s : FileSystem) (f : FilePtr) (len offset : Nat) {ret : Int} (none : ret ≤ 0) :
    Truthful s f len offset [] ret where
  most _ := by omega
  exactly _ := by
    ext c
    constructor
    · rintro ⟨_, member, _⟩
      simp at member
    · rintro ⟨high, _⟩
      omega
  noticed := by simp

end Transfers

section Reading
variable {s s' : FileSystem} {fd len offset : Nat} {o : OpenFile} {device : Nat → Answer}
  {buffer back : Nat → UInt8} {trace : List (Segment × Answer)} {ret : Int}

/-- Where a read gets to its blocks, the device is steady on them. -/
def ReadsSteadily (s : FileSystem) (f : FilePtr) (device : Nat → Answer) (len offset : Nat) : Prop :=
  ∀ b blocks, len ≠ 0 → offset < (s.fileMeta f).size → s.getFileBlock f 0 = some b →
    planTransfer s.superMeta (s.fileBlockMetas b)
      (if (s.fileMeta f).size < (offset + len) % 2 ^ 64 then (s.fileMeta f).size - offset else len)
      offset = .ok blocks → Steady s.disk device blocks

theorem preadOn_truthful (result : s.preadOn fd o device buffer len offset = .ok (s', back, trace, ret)) :
    Truthful s o.file len offset trace ret ↔ s.ReadsSteadily o.file device len offset := by
  unfold preadOn at result
  dsimp only at result
  split at result
  · next outside =>
    obtain ⟨_, same⟩ := Prod.mk.inj (Except.ok.inj result)
    obtain ⟨_, same⟩ := Prod.mk.inj same
    obtain ⟨rfl, rfl⟩ := Prod.mk.inj same
    refine iff_of_true (.nothing s _ _ _ (le_refl 0)) fun b blocks some_ inside => ?_
    omega
  · next inside =>
    unfold readDataOn at result
    generalize need : (if (s.fileMeta o.file).size < (offset + len) % 2 ^ 64 then
      (s.fileMeta o.file).size - offset else len) = n at result
    have range : 0 < n ∧ n ≤ len := by
      have le := Nat.mod_le (offset + len) (2 ^ 64)
      split at need <;> omega
    split at result
    · next none =>
      obtain ⟨_, same⟩ := Prod.mk.inj (Except.ok.inj result)
      obtain ⟨_, same⟩ := Prod.mk.inj same
      obtain ⟨rfl, rfl⟩ := Prod.mk.inj same
      refine iff_of_true (.nothing s _ _ _ (by omega)) fun b blocks _ _ item => ?_
      rw [none] at item
      simp at item
    · next b item =>
      obtain ⟨blocks, planned, result⟩ := Except.bind_eq_ok.mp result
      obtain ⟨⟨y, steps, sum⟩, done, result⟩ := Except.bind_eq_ok.mp result
      obtain ⟨_, same⟩ := Prod.mk.inj (Except.ok.inj result)
      obtain ⟨_, same⟩ := Prod.mk.inj same
      obtain ⟨rfl, rfl⟩ := Prod.mk.inj same
      rw [truthful_iff item planned range.1 range.2 done]
      constructor
      · intro steady c others _ _ item' planned'
        rw [item] at item'
        obtain rfl := Option.some.inj item'
        rw [need, planned] at planned'
        obtain rfl := Except.ok.inj planned'
        exact steady
      · intro steady
        exact steady b blocks (by omega) (by omega) item (by rw [need]; exact planned)

/-- The buffer behind a truthful read: the first bytes of the range, as many as the count says, and
what it held. -/
theorem preadOn_bytes (result : s.preadOn fd o device buffer len offset = .ok (s', back, trace, ret))
    (truthful : Truthful s o.file len offset trace ret) (counted : 0 ≤ ret) (i : Nat) :
    ((i : Int) < ret → ∀ x, s.fileAddress o.file (offset + i) = some x → back i = s.disk.data x) ∧
      (ret ≤ i → back i = buffer i) := by
  have exactly := Set.ext_iff.mp (truthful.exactly counted)
  unfold preadOn at result
  dsimp only at result
  split at result
  · obtain ⟨_, out⟩ := Prod.mk.inj (Except.ok.inj result)
    obtain ⟨rfl, same⟩ := Prod.mk.inj out
    obtain ⟨rfl, rfl⟩ := Prod.mk.inj same
    exact ⟨fun less => by omega, fun _ => rfl⟩
  · unfold readDataOn at result
    generalize need : (if (s.fileMeta o.file).size < (offset + len) % 2 ^ 64 then
      (s.fileMeta o.file).size - offset else len) = n at result
    have positive : 0 < n := by split at need <;> omega
    split at result
    · obtain ⟨_, same⟩ := Prod.mk.inj (Except.ok.inj result)
      obtain ⟨_, same⟩ := Prod.mk.inj same
      obtain ⟨_, rfl⟩ := Prod.mk.inj same
      omega
    · obtain ⟨blocks, planned, result⟩ := Except.bind_eq_ok.mp result
      obtain ⟨⟨y, steps, sum⟩, done, result⟩ := Except.bind_eq_ok.mp result
      obtain ⟨_, out⟩ := Prod.mk.inj (Except.ok.inj result)
      obtain ⟨rfl, same⟩ := Prod.mk.inj out
      obtain ⟨rfl, rfl⟩ := Prod.mk.inj same
      obtain ⟨rfl, _⟩ := transferBlocks_sweep done
      obtain ⟨fetched, kept⟩ := transferBlocks_filled (planTransfer_covers planned positive).1 done i
      constructor
      · intro less x there
        exact fetched x ((exactly (i, x)).mpr ⟨less, there⟩)
      · intro behind
        refine kept fun x member => ?_
        obtain ⟨less, _⟩ := (exactly (i, x)).mp member
        dsimp only at less
        omega

end Reading

section Writing
variable [Crc32] {s s' : FileSystem} {env : Env} {f : FilePtr} {fd len offset : Nat} {o : OpenFile}
  {device : Nat → Answer} {buffer : Nat → UInt8} {trace : List (Segment × Answer)} {r ret : Int}

theorem writeMeta_size (s : FileSystem) (env : Env) (f g : FilePtr) :
    ((s.writeMeta env f).1.fileMeta g).size = (s.fileMeta g).size := by
  have kept : ((s.modifyFileMeta (s.fileMeta f).fh FileMeta.sealed).fileMeta g).size = (s.fileMeta g).size :=
    view_update s.fileMetas _ _ (·.size) rfl
  unfold writeMeta writeFileMeta pwriteDirect
  dsimp only
  split <;> exact kept

theorem extendBlocks_size {needed : Nat} {b : FileBlockPtr} {isNew : Bool}
    (done : s.extendBlocks env f offset needed b isNew = (s', r)) (succeeded : 0 ≤ r) :
    (s'.fileMeta f).size = offset := by
  have failed {t : FileSystem} (same : (t, (-1 : Int)) = (s', r)) : False := by
    obtain ⟨_, rfl⟩ := Prod.mk.inj same
    omega
  unfold extendBlocks at done
  split at done
  · exact (failed done).elim
  · next t ids _ =>
    dsimp only at done
    split at done
    · exact (failed done).elim
    · split at done
      · exact (failed done).elim
      · next v _ =>
        generalize (if !ids.isEmpty && isNew then (v.addFileBlockNoLock f b).1 else v) = x at done
        split at done
        · exact (failed done).elim
        · next w same =>
          obtain ⟨rfl, _⟩ := Prod.mk.inj done
          have kept := writeMeta_size
            (x.modifyFileMeta (x.files f).metaSlot fun m => { m with size := offset }) env f f
          rw [same] at kept
          refine kept.trans ?_
          rw [fileMeta, modifyFileMeta]
          dsimp only
          rw [Function.update_self]

theorem extendFile_size (done : s.extendFile env f offset = .ok (s', r)) (succeeded : 0 ≤ r) :
    (s'.fileMeta f).size = offset := by
  have failed {t : FileSystem} (same : Except.ok (t, (-1 : Int)) = Except.ok (ε := Fault) (s', r)) :
      False := by
    obtain ⟨_, rfl⟩ := Prod.mk.inj (Except.ok.inj same)
    omega
  unfold extendFile at done
  dsimp only at done
  split at done
  · exact (failed done).elim
  · split at done
    · split at done
      · simp at done
      · obtain ⟨⟨t, block⟩, _, rest⟩ := Except.bind_eq_ok.mp done
        cases block with
        | none => exact (failed rest).elim
        | some b => exact extendBlocks_size (Except.ok.inj rest) succeeded
    · split at done
      · simp at done
      · split at done
        · exact (failed done).elim
        · split at done
          · exact (failed done).elim
          · exact extendBlocks_size (Except.ok.inj done) succeeded

theorem growFor_size {n : Nat} (done : s.growFor env f n = .ok (s', r)) (succeeded : 0 ≤ r) :
    (s'.fileMeta f).size = max (s.fileMeta f).size n := by
  unfold growFor at done
  split at done
  · next grows =>
    rw [ftruncate, if_pos grows] at done
    rw [extendFile_size done succeeded]
    omega
  · obtain ⟨rfl, _⟩ := Prod.mk.inj (Except.ok.inj done)
    omega

/-- Where a write gets to its blocks, the device is steady on them, and moves them in full when the
file has grown for them. A write of nothing starts inside the file. -/
structure WritesSteadily (s : FileSystem) (env : Env) (f : FilePtr) (device : Nat → Answer)
    (len offset : Nat) : Prop where
  empty : len = 0 → offset ≤ (s.fileMeta f).size
  steady : ∀ t r b blocks, len ≠ 0 → s.growFor env f ((offset + len) % 2 ^ 64) = .ok (t, r) → 0 ≤ r →
    t.getFileBlock f 0 = some b →
    planTransfer t.superMeta (t.fileBlockMetas b) len offset = .ok blocks →
    Steady t.disk device blocks ∧
      (offset + len ≤ (s.fileMeta f).size ∨ Full (t.disk.answers device 0 blocks))

theorem pwriteOn_truthful (bound : offset < 2 ^ 64)
    (result : s.pwriteOn env fd o device buffer len offset = .ok (s', trace, ret)) :
    (Truthful s' o.file len offset trace ret ∧
      (0 ≤ ret → ((s'.fileMeta o.file).size : Int) = max ((s.fileMeta o.file).size : Int) (offset + ret))) ↔
      s.WritesSteadily env o.file device len offset := by
  unfold pwriteOn at result
  split at result
  · next empty =>
    obtain ⟨rfl, same⟩ := Prod.mk.inj (Except.ok.inj result)
    obtain ⟨rfl, rfl⟩ := Prod.mk.inj same
    constructor
    · rintro ⟨_, size⟩
      have same := size (le_refl 0)
      exact ⟨fun _ => by omega, fun _ _ _ _ some_ => absurd empty some_⟩
    · intro steady
      have inside := steady.empty empty
      exact ⟨.nothing s _ _ _ (le_refl 0), fun _ => by omega⟩
  · next some_ =>
    obtain ⟨⟨t, r⟩, grown, result⟩ := Except.bind_eq_ok.mp result
    replace grown : s.growFor env o.file ((offset + len) % 2 ^ 64) = .ok (t, r) := grown
    dsimp only at result
    split at result
    · next failed =>
      obtain ⟨rfl, same⟩ := Prod.mk.inj (Except.ok.inj result)
      obtain ⟨rfl, rfl⟩ := Prod.mk.inj same
      refine iff_of_true ⟨.nothing t _ _ _ (by omega), fun _ => by omega⟩
        ⟨fun empty => absurd empty some_, fun u r' b blocks _ grown' succeeded => ?_⟩
      rw [grown] at grown'
      obtain ⟨_, rfl⟩ := Prod.mk.inj (Except.ok.inj grown')
      omega
    · next succeeded =>
      have size := growFor_size grown (by omega)
      -- The time stamp leaves the size, the table and the device alone.
      have stamped : ∃ u : FileSystem, u = (if env.now % 2 = 0 then t.updateTimeStamp o.file env.now else t) ∧
          (u.fileMeta o.file).size = (t.fileMeta o.file).size ∧ u.files = t.files ∧
          u.superMeta = t.superMeta ∧ u.fileBlockMetas = t.fileBlockMetas ∧ u.disk = t.disk := by
        refine ⟨_, rfl, ?_⟩
        split
        · exact ⟨view_update t.fileMetas _ _ (·.size) rfl, rfl, rfl, rfl, rfl⟩
        · exact ⟨rfl, rfl, rfl, rfl, rfl⟩
      obtain ⟨u, same, size', files, super, tables, disk⟩ := stamped
      rw [← same] at result
      unfold writeDataOn at result
      split at result
      · simp at result
      · next b item =>
        obtain ⟨blocks, planned, result⟩ := Except.bind_eq_ok.mp result
        obtain ⟨⟨y, steps, sum⟩, done, result⟩ := Except.bind_eq_ok.mp result
        obtain ⟨rfl, same⟩ := Prod.mk.inj (Except.ok.inj result)
        obtain ⟨rfl, rfl⟩ := Prod.mk.inj same
        have item' : t.getFileBlock o.file 0 = some b := by
          rw [← item, getFileBlock, getFileBlock, files]
        have planned' : planTransfer t.superMeta (t.fileBlockMetas b) len offset = .ok blocks := by
          rw [← super, ← tables]
          exact planned
        have core : Truthful u o.file len offset steps sum ↔ Steady t.disk device blocks := by
          rw [truthful_iff item planned (by omega) (le_refl len) done, disk]
        have reported := (transferBlocks_sweep done).2
        obtain ⟨covers, room⟩ := planTransfer_covers planned (Nat.pos_of_ne_zero some_)
        have range : offset + len < 2 ^ 64 := by
          rw [show kBlockSize = 4194304 from rfl, show kFileBlockCapacity = 1000 from rfl] at room
          omega
        rw [Nat.mod_eq_of_lt range] at size
        rw [← u.disk.answers_fst device 0 blocks] at covers
        have whole := covers.total_eq (u.disk.answers_bounded device 0 blocks)
        rw [← reported, disk] at whole
        -- What is left only moves the device bytes and the cursor.
        generalize moved : FileSystem.advance _ fd o sum = v
        have address : v.fileAddress o.file = u.fileAddress o.file := by rw [← moved]; rfl
        have sized : (v.fileMeta o.file).size = max (s.fileMeta o.file).size (offset + len) := by
          rw [← size, ← size', ← moved]
          rfl
        rw [show Truthful v o.file len offset steps sum ↔ _ from
          ⟨.congr address.symm, .congr address⟩, core, sized]
        constructor
        · rintro ⟨steady, grown_⟩
          refine ⟨fun empty => absurd empty some_, fun w r' c others _ grown' _ found made => ?_⟩
          rw [grown] at grown'
          obtain ⟨rfl, _⟩ := Prod.mk.inj (Except.ok.inj grown')
          rw [item'] at found
          obtain rfl := Option.some.inj found
          rw [planned'] at made
          obtain rfl := Except.ok.inj made
          refine ⟨steady, ?_⟩
          by_cases fits : offset + len ≤ (s.fileMeta o.file).size
          · exact .inl fits
          · have nonneg : 0 ≤ sum := reported ▸ total_nonneg _
            have same := grown_ nonneg
            exact .inr (whole.2.mp (by omega))
        · intro writes
          obtain ⟨steady, sized⟩ := writes.steady t r b blocks some_ grown (by omega) item' planned'
          refine ⟨steady, fun nonneg => ?_⟩
          rcases sized with fits | full
          · have most := whole.1
            omega
          · have all := whole.2.mpr full
            omega

end Writing

section Counts
variable [Crc32]

omit [Crc32] in
theorem toU64_lt (n : Int) : toU64 n < 2 ^ 64 := by
  unfold toU64
  omega

/-- The device moves one byte of each block. -/
def oneByte (_ : Nat) : Answer := { moved := 1, failed := false }

/-- The device fails on every block. -/
def brokenDevice (_ : Nat) : Answer := { moved := 0, failed := true }

end Counts

end FileSystem

end BlockFs
