import BlockFs.BlockTable
import BlockFs.OpenFile
import BlockFs.Lib.Fallible

namespace BlockFs

theorem kBlockSize_positive : 0 < kBlockSize := by decide

/-- The device address of a byte of a file whose blocks a file block lists. -/
def byteAddress (super : SuperBlockMeta) (m : FileBlockMeta) (position : Nat) : Nat :=
  super.blockDataStartOffset + super.blockSize * m.blockId (position / kBlockSize) +
    position % kBlockSize

/-- One transfer that starts at byte `curr` of a buffer whose first byte lies at `offset` of the
file, and stays inside the block of its first byte. -/
structure Piece (super : SuperBlockMeta) (m : FileBlockMeta) (offset curr : Nat) (block : BlockData) :
    Prop where
  index : (offset + curr) / kBlockSize < m.usedBlockNum
  blockId : block.blockId = m.blockId ((offset + curr) / kBlockSize)
  bufferOffset : block.bufferOffset = curr
  devOffset : block.devOffset = byteAddress super m (offset + curr)
  positive : 0 < block.size
  inside : (offset + curr) % kBlockSize + block.size ≤ kBlockSize

/-- Pieces that move the bytes from `curr` to `size` of the buffer, one behind the other. -/
inductive Plan (super : SuperBlockMeta) (m : FileBlockMeta) (offset size : Nat) :
    Nat → List BlockData → Prop
  | last {curr block} (piece : Piece super m offset curr block) (ends : curr + block.size = size) :
    Plan super m offset size curr [block]
  | more {curr block blocks} (piece : Piece super m offset curr block)
    (rest : Plan super m offset size (curr + block.size) blocks) :
    Plan super m offset size curr (block :: blocks)

section Plan
variable {super : SuperBlockMeta} {m : FileBlockMeta} {offset size curr : Nat}
  {block : BlockData} {blocks : List BlockData}

theorem Plan.lt (plan : Plan super m offset size curr blocks) : curr < size := by
  induction plan with
  | last piece ends =>
    have positive := piece.positive
    omega
  | more piece _ ih =>
    have positive := piece.positive
    omega

theorem Piece.address (piece : Piece super m offset curr block) {i : Nat} (less : i < block.size) :
    byteAddress super m (offset + (curr + i)) = block.devOffset + i := by
  have inside := piece.inside
  have whole := Nat.div_add_mod (offset + curr) kBlockSize
  have split : offset + (curr + i) =
      (offset + curr) % kBlockSize + i + kBlockSize * ((offset + curr) / kBlockSize) := by omega
  have short : (offset + curr) % kBlockSize + i < kBlockSize := by omega
  have block_ : (offset + (curr + i)) / kBlockSize = (offset + curr) / kBlockSize := by
    rw [split, Nat.add_mul_div_left _ _ kBlockSize_positive, Nat.div_eq_of_lt short, Nat.zero_add]
  have rest : (offset + (curr + i)) % kBlockSize = (offset + curr) % kBlockSize + i := by
    rw [split, Nat.add_mul_mod_self_left, Nat.mod_eq_of_lt short]
  rw [piece.devOffset, byteAddress, byteAddress, block_, rest]
  omega

/-- The planning loop covers a range that lies in the blocks of its file block. The block index and
the offset inside the block are those of the next byte; only the first block is entered in its
middle. -/
theorem planBlocks_plan (inside : offset + size ≤ m.usedBlockNum * kBlockSize)
    (bounded : m.usedBlockNum ≤ kFileBlockCapacity) {fuel index inBlock : Nat} (less : curr < size)
    (block_ : index = (offset + curr) / kBlockSize) (byte : inBlock = (offset + curr) % kBlockSize)
    (first : 0 < inBlock → curr = 0) (enough : kFileBlockCapacity < fuel + index) :
    ∃ blocks, planBlocks super m size fuel curr index inBlock = .ok blocks ∧
      Plan super m offset size curr blocks := by
  induction fuel generalizing curr index inBlock with
  | zero =>
    have room : (offset + curr) / kBlockSize < m.usedBlockNum :=
      Nat.div_lt_of_lt_mul (by rw [Nat.mul_comm]; omega)
    omega
  | succ fuel ih =>
    have room : (offset + curr) / kBlockSize < m.usedBlockNum :=
      Nat.div_lt_of_lt_mul (by rw [Nat.mul_comm]; omega)
    have valid : index < kFileBlockCapacity := by omega
    have short := Nat.mod_lt (offset + curr) kBlockSize_positive
    have whole := Nat.div_add_mod (offset + curr) kBlockSize
    rw [planBlocks, FileBlockMeta.getBlockId, if_pos valid, Except.ok_bind]
    dsimp only
    generalize count : (if 0 < inBlock then min size (kBlockSize - inBlock)
      else min (size - curr) kBlockSize) = n
    have extent : 0 < n ∧ inBlock + n ≤ kBlockSize ∧ curr + n ≤ size ∧
        (curr + n < size → inBlock + n = kBlockSize) := by
      have positive := kBlockSize_positive
      split at count
      · next middle =>
        have start := first middle
        omega
      · next aligned => omega
    obtain ⟨positive, fits, ends, full⟩ := extent
    have piece : Piece super m offset curr
        { blockId := m.blockId index, bufferOffset := curr,
          devOffset := super.blockDataStartOffset + super.blockSize * m.blockId index + inBlock,
          size := n } :=
      { index := room
        blockId := by rw [block_]
        bufferOffset := rfl
        devOffset := by rw [block_, byte, byteAddress]
        positive := positive
        inside := by rw [← byte]; exact fits }
    split
    · next done =>
      refine ⟨_, rfl, .last piece ?_⟩
      dsimp only
      omega
    · next goes =>
      have step : offset + (curr + n) = kBlockSize * ((offset + curr) / kBlockSize + 1) := by
        rw [Nat.mul_succ]
        have filled := full (by omega)
        omega
      have next : index + 1 = (offset + (curr + n)) / kBlockSize := by
        rw [step, Nat.mul_div_cancel_left _ kBlockSize_positive, block_]
      have aligned : 0 = (offset + (curr + n)) % kBlockSize := by rw [step, Nat.mul_mod_right]
      obtain ⟨blocks, run, plan⟩ := ih (by omega) next aligned
        (fun impossible => absurd impossible (Nat.lt_irrefl 0)) (by omega)
      exact ⟨_, by rw [run]; rfl, .more piece plan⟩

/-- Every transfer inside the blocks of a file block is planned. -/
theorem planTransfer_plan (inside : offset + size ≤ m.usedBlockNum * kBlockSize)
    (bounded : m.usedBlockNum ≤ kFileBlockCapacity) (positive : 0 < size) :
    ∃ blocks, planTransfer super m size offset = .ok blocks ∧ Plan super m offset size 0 blocks := by
  have index : offset / kBlockSize < 2 ^ 32 := by
    have room : offset / kBlockSize < m.usedBlockNum :=
      Nat.div_lt_of_lt_mul (by rw [Nat.mul_comm]; omega)
    have capacity : kFileBlockCapacity = 1000 := rfl
    omega
  exact planBlocks_plan inside bounded positive (Nat.mod_eq_of_lt index) rfl (fun _ => rfl)
    (Nat.lt_of_lt_of_le (Nat.lt_succ_self _) (Nat.le_add_right _ _))

end Plan

section Moving
variable {super : SuperBlockMeta} {m : FileBlockMeta} {offset size curr : Nat}
  {blocks : List BlockData} {d : Disk}

/-- The block locks cover every block of a plan, and the device reaches to the end of every piece. -/
structure InReach (d : Disk) (blocks : List BlockData) : Prop where
  locks : ∀ block ∈ blocks, block.blockId < kBlockLockNum
  extent : ∀ block ∈ blocks, block.devOffset + block.size ≤ d.size

/-- The device bytes after a piece has been written. -/
def BlockData.onto (block : BlockData) (buffer data : Nat → UInt8) (x : Nat) : UInt8 :=
  if block.devOffset ≤ x ∧ x < block.devOffset + block.size then
    buffer (block.bufferOffset + (x - block.devOffset)) else data x

/-- The buffer after a piece has been read. -/
def BlockData.filled (block : BlockData) (data buffer : Nat → UInt8) (i : Nat) : UInt8 :=
  if block.bufferOffset ≤ i ∧ i < block.bufferOffset + block.size then
    data (block.devOffset + (i - block.bufferOffset)) else buffer i

theorem pwriteCache_ok {block : BlockData} (buffer : Nat → UInt8)
    (extent : block.devOffset + block.size ≤ d.size) :
    d.pwriteCache buffer block.bufferOffset block.size block.devOffset =
      ({ d with data := block.onto buffer d.data }, (block.size : Int)) :=
  if_neg (Nat.not_lt.mpr ((Nat.mod_le _ _).trans extent))

theorem preadCache_ok {block : BlockData} (buffer : Nat → UInt8)
    (extent : block.devOffset + block.size ≤ d.size) :
    d.preadCache buffer block.bufferOffset block.size block.devOffset =
      (block.filled d.data buffer, (block.size : Int)) :=
  if_neg (Nat.not_lt.mpr ((Nat.mod_le _ _).trans extent))

section Piece
variable {block : BlockData} (piece : Piece super m offset curr block)
include piece

theorem Piece.onto_at (buffer data : Nat → UInt8) {i : Nat} (less : i < block.size) :
    block.onto buffer data (byteAddress super m (offset + (curr + i))) = buffer (curr + i) := by
  rw [piece.address less, BlockData.onto, if_pos (by omega), piece.bufferOffset]
  congr 1
  omega

theorem Piece.onto_off (buffer data : Nat → UInt8) {x : Nat}
    (off : ∀ i < block.size, byteAddress super m (offset + (curr + i)) ≠ x) :
    block.onto buffer data x = data x := by
  refine if_neg ?_
  rintro ⟨low, high⟩
  refine off (x - block.devOffset) (by omega) ?_
  rw [piece.address (by omega)]
  omega

theorem Piece.filled_at (data buffer : Nat → UInt8) {i : Nat} (less : i < block.size) :
    block.filled data buffer (curr + i) = data (byteAddress super m (offset + (curr + i))) := by
  rw [piece.address less, BlockData.filled, piece.bufferOffset, if_pos (by omega)]
  congr 2
  omega

theorem Piece.filled_before (data buffer : Nat → UInt8) {i : Nat} (before : i < curr) :
    block.filled data buffer i = buffer i := by
  rw [BlockData.filled, piece.bufferOffset, if_neg (by omega)]

end Piece

/-- A planned write moves all its bytes: each lands at the address of its place in the file, unless
two places share an address, and no other byte of the device changes. -/
theorem Plan.writeBlocks (plan : Plan super m offset size curr blocks) (buffer : Nat → UInt8)
    (reach : InReach d blocks)
    (apart : ∀ i < size, ∀ j < size,
      byteAddress super m (offset + i) = byteAddress super m (offset + j) → i = j) :
    ∃ data, BlockFs.writeBlocks buffer blocks d =
        .ok ({ d with data := data }, ((size - curr : Nat) : Int)) ∧
      (∀ i, curr ≤ i → i < size → data (byteAddress super m (offset + i)) = buffer i) ∧
      ∀ x, (∀ i, curr ≤ i → i < size → byteAddress super m (offset + i) ≠ x) → data x = d.data x := by
  induction plan generalizing d with
  | @last curr block piece ends =>
    have lock := Nat.not_le.mpr (reach.locks block (by simp))
    have extent := reach.extent block (by simp)
    have positive := piece.positive
    refine ⟨block.onto buffer d.data, ?_, fun i low high => ?_, fun x off => ?_⟩
    · rw [BlockFs.writeBlocks, if_neg lock, pwriteCache_ok buffer extent]
      dsimp only
      rw [if_neg (by omega), BlockFs.writeBlocks, Except.ok_bind]
      have all : (block.size : Int) + 0 = ((size - curr : Nat) : Int) := by omega
      dsimp only
      rw [all]
    · obtain ⟨j, rfl⟩ := Nat.exists_eq_add_of_le low
      exact piece.onto_at buffer d.data (by omega)
    · exact piece.onto_off buffer d.data fun i less => off (curr + i) (by omega) (by omega)
  | @more curr block blocks piece rest ih =>
    have lock := Nat.not_le.mpr (reach.locks block (by simp))
    have extent := reach.extent block (by simp)
    have positive := piece.positive
    have less := rest.lt
    have reach' : InReach { d with data := block.onto buffer d.data } blocks :=
      ⟨fun b member => reach.locks b (by simp [member]),
        fun b member => reach.extent b (by simp [member])⟩
    obtain ⟨data, run, placed, kept⟩ := ih reach'
    refine ⟨data, ?_, fun i low high => ?_, fun x off => ?_⟩
    · rw [BlockFs.writeBlocks, if_neg lock, pwriteCache_ok buffer extent]
      dsimp only
      rw [if_neg (by omega), run, Except.ok_bind]
      have all : (block.size : Int) + ((size - (curr + block.size) : Nat) : Int) =
          ((size - curr : Nat) : Int) := by omega
      dsimp only
      rw [all]
    · by_cases here : i < curr + block.size
      · obtain ⟨j, rfl⟩ := Nat.exists_eq_add_of_le low
        rw [kept _ fun k later bound same => ?_]
        · exact piece.onto_at buffer d.data (by omega)
        · have shared := apart k bound (curr + j) high same
          omega
      · exact placed i (by omega) high
    · rw [kept x fun k later bound => off k (by omega) bound]
      exact piece.onto_off buffer d.data fun i less' => off (curr + i) (by omega) (by omega)

/-- A planned read fetches all its bytes. -/
theorem Plan.readBlocks (plan : Plan super m offset size curr blocks) (buffer : Nat → UInt8)
    (reach : InReach d blocks) :
    ∃ back, BlockFs.readBlocks d blocks buffer = .ok (back, ((size - curr : Nat) : Int)) ∧
      (∀ i, curr ≤ i → i < size → back i = d.data (byteAddress super m (offset + i))) ∧
      ∀ i < curr, back i = buffer i := by
  induction plan generalizing buffer with
  | @last curr block piece ends =>
    have lock := Nat.not_le.mpr (reach.locks block (by simp))
    have extent := reach.extent block (by simp)
    have positive := piece.positive
    refine ⟨block.filled d.data buffer, ?_, fun i low high => ?_, fun i before => ?_⟩
    · rw [BlockFs.readBlocks, if_neg lock, preadCache_ok buffer extent]
      dsimp only
      rw [if_neg (by omega), BlockFs.readBlocks, Except.ok_bind]
      have all : (block.size : Int) + 0 = ((size - curr : Nat) : Int) := by omega
      dsimp only
      rw [all]
    · obtain ⟨j, rfl⟩ := Nat.exists_eq_add_of_le low
      exact piece.filled_at d.data buffer (by omega)
    · exact piece.filled_before d.data buffer before
  | @more curr block blocks piece rest ih =>
    have lock := Nat.not_le.mpr (reach.locks block (by simp))
    have extent := reach.extent block (by simp)
    have positive := piece.positive
    have less := rest.lt
    obtain ⟨back, run, fetched, kept⟩ := ih (block.filled d.data buffer)
      ⟨fun b member => reach.locks b (by simp [member]),
        fun b member => reach.extent b (by simp [member])⟩
    refine ⟨back, ?_, fun i low high => ?_, fun i before => ?_⟩
    · rw [BlockFs.readBlocks, if_neg lock, preadCache_ok buffer extent]
      dsimp only
      rw [if_neg (by omega), run, Except.ok_bind]
      have all : (block.size : Int) + ((size - (curr + block.size) : Nat) : Int) =
          ((size - curr : Nat) : Int) := by omega
      dsimp only
      rw [all]
    · by_cases here : i < curr + block.size
      · obtain ⟨j, rfl⟩ := Nat.exists_eq_add_of_le low
        rw [kept _ here]
        exact piece.filled_at d.data buffer (by omega)
      · exact fetched i (by omega) high
    · rw [kept i (by omega)]
      exact piece.filled_before d.data buffer before

/-- A write that reaches its end on the device has found a lock for every block. -/
theorem locks_of_writeBlocks {buffer : Nat → UInt8} {d' : Disk} {r : Int}
    (positive : ∀ block ∈ blocks, 0 < block.size)
    (extent : ∀ block ∈ blocks, block.devOffset + block.size ≤ d.size)
    (moved : BlockFs.writeBlocks buffer blocks d = .ok (d', r)) :
    ∀ block ∈ blocks, block.blockId < kBlockLockNum := by
  induction blocks generalizing d d' r with
  | nil => simp
  | cons block blocks ih =>
    have some_ := positive block (by simp)
    rw [BlockFs.writeBlocks] at moved
    split at moved
    · simp at moved
    next lock =>
    rw [pwriteCache_ok buffer (extent block (by simp))] at moved
    dsimp only at moved
    rw [if_neg (by omega)] at moved
    obtain ⟨⟨e, n⟩, rest, _⟩ := Except.bind_eq_ok.mp moved
    intro other member
    rcases List.mem_cons.mp member with rfl | later
    · omega
    · refine ih (fun b there => positive b (by simp [there])) (fun b there => ?_) rest other later
      exact extent b (by simp [there])

theorem locks_of_readBlocks {buffer back : Nat → UInt8} {r : Int}
    (positive : ∀ block ∈ blocks, 0 < block.size)
    (extent : ∀ block ∈ blocks, block.devOffset + block.size ≤ d.size)
    (moved : BlockFs.readBlocks d blocks buffer = .ok (back, r)) :
    ∀ block ∈ blocks, block.blockId < kBlockLockNum := by
  induction blocks generalizing buffer back r with
  | nil => simp
  | cons block blocks ih =>
    have some_ := positive block (by simp)
    rw [BlockFs.readBlocks] at moved
    split at moved
    · simp at moved
    next lock =>
    rw [preadCache_ok buffer (extent block (by simp))] at moved
    dsimp only at moved
    rw [if_neg (by omega)] at moved
    obtain ⟨⟨_, _⟩, rest, _⟩ := Except.bind_eq_ok.mp moved
    intro other member
    rcases List.mem_cons.mp member with rfl | later
    · omega
    · refine ih (fun b there => positive b (by simp [there])) (fun b there => ?_) rest other later
      exact extent b (by simp [there])

/-- The transfer loops stop for want of a block lock only. -/
theorem writeBlocks_fault {buffer : Nat → UInt8} {fault : Fault}
    (stops : BlockFs.writeBlocks buffer blocks d = .error fault) : fault = .blockLock := by
  induction blocks generalizing d with
  | nil => simp [BlockFs.writeBlocks] at stops
  | cons block blocks ih =>
    rw [BlockFs.writeBlocks] at stops
    split at stops
    · exact (Except.error.inj stops).symm
    · dsimp only at stops
      split at stops
      · simp at stops
      · cases run : BlockFs.writeBlocks buffer blocks
            (d.pwriteCache buffer block.bufferOffset block.size block.devOffset).1 with
        | error fault' =>
          rw [run] at stops
          obtain rfl := Except.error.inj stops
          exact ih run
        | ok moved =>
          rw [run] at stops
          simp at stops

theorem readBlocks_fault {buffer : Nat → UInt8} {fault : Fault}
    (stops : BlockFs.readBlocks d blocks buffer = .error fault) : fault = .blockLock := by
  induction blocks generalizing buffer with
  | nil => simp [BlockFs.readBlocks] at stops
  | cons block blocks ih =>
    rw [BlockFs.readBlocks] at stops
    split at stops
    · exact (Except.error.inj stops).symm
    · dsimp only at stops
      split at stops
      · simp at stops
      · cases run : BlockFs.readBlocks d blocks
            (d.preadCache buffer block.bufferOffset block.size block.devOffset).1 with
        | error fault' =>
          rw [run] at stops
          obtain rfl := Except.error.inj stops
          exact ih run
        | ok moved =>
          rw [run] at stops
          simp at stops

end Moving

end BlockFs
