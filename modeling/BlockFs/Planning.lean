import BlockFs.Runs
import BlockFs.Transfer
import BlockFs.Lib.Cuts
import BlockFs.Lib.DoWhile

namespace BlockFs

/-- What the planning loops carry from round to round. -/
structure Planning where
  currCount : Nat
  blockIndexInFileBlock : Nat
  blockOffsetInBlock : Nat
  blocks : List BlockData

/-- The loop variables as both functions initialize them. The index is kept in 32 bits. -/
def Planning.start (offset : Nat) : Planning :=
  ⟨0, offset / kBlockSize % 2 ^ 32, offset % kBlockSize, []⟩

namespace FileReader

/-- One round of the planning loop of `ReadData`, and whether it breaks out of the loop. -/
def planRound (super : SuperBlockMeta) (m : FileBlockMeta) (size : Nat) (p : Planning) :
    Except Fault (Planning × Bool) := do
  let blockId ← m.getBlockId p.blockIndexInFileBlock
  let (blockReadOffset, blockReadSize) :=
    if 0 < p.blockOffsetInBlock then
      (p.blockOffsetInBlock, min size (kBlockSize - p.blockOffsetInBlock))
    else (0, min (size - p.currCount) kBlockSize)
  let devOffset := super.blockDataStartOffset + super.blockSize * blockId + blockReadOffset
  let block : BlockData :=
    { blockId := blockId, bufferOffset := p.currCount, devOffset := devOffset,
      size := blockReadSize }
  let readBlocks := p.blocks ++ [block]
  let currReadCount := p.currCount + blockReadSize
  if size ≤ currReadCount then .ok (⟨currReadCount, p.blockIndexInFileBlock, 0, readBlocks⟩, true)
  else .ok (⟨currReadCount, p.blockIndexInFileBlock + 1, 0, readBlocks⟩, false)

/-- The planning of `ReadData`, with the blocks it leaves in `read_blocks_`. -/
def plan (super : SuperBlockMeta) (m : FileBlockMeta) (size offset fuel : Nat) :
    Except Fault (List BlockData) := do
  let p ← Loop.doWhile (planRound super m size) .fuel fuel (.start offset)
  .ok p.blocks

end FileReader

namespace FileWriter

/-- One round of the planning loop of `WriteData`, and whether it breaks out of the loop. -/
def planRound (super : SuperBlockMeta) (m : FileBlockMeta) (size : Nat) (p : Planning) :
    Except Fault (Planning × Bool) := do
  let blockId ← m.getBlockId p.blockIndexInFileBlock
  let (blockWriteOffset, blockWriteSize) :=
    if 0 < p.blockOffsetInBlock then
      (p.blockOffsetInBlock, min size (kBlockSize - p.blockOffsetInBlock))
    else (0, min (size - p.currCount) kBlockSize)
  let devOffset := super.blockDataStartOffset + super.blockSize * blockId + blockWriteOffset
  let block : BlockData :=
    { blockId := blockId, bufferOffset := p.currCount, devOffset := devOffset,
      size := blockWriteSize }
  let writeBlocks := p.blocks ++ [block]
  let currWriteCount := p.currCount + blockWriteSize
  if size ≤ currWriteCount then
    .ok (⟨currWriteCount, p.blockIndexInFileBlock, 0, writeBlocks⟩, true)
  else .ok (⟨currWriteCount, p.blockIndexInFileBlock + 1, 0, writeBlocks⟩, false)

/-- The planning of `WriteData`, with the blocks it leaves in `write_blocks_`. -/
def plan (super : SuperBlockMeta) (m : FileBlockMeta) (size offset fuel : Nat) :
    Except Fault (List BlockData) := do
  let p ← Loop.doWhile (planRound super m size) .fuel fuel (.start offset)
  .ok p.blocks

end FileWriter

section Rounds
variable {super : SuperBlockMeta} {m : FileBlockMeta} {offset size k : Nat} {p : Planning}

/-- The two copies of the loop do the same. -/
theorem FileWriter.planRound_eq :
    FileWriter.planRound super m size = FileReader.planRound super m size := rfl

theorem FileWriter.plan_eq (fuel : Nat) :
    FileWriter.plan super m size offset fuel = FileReader.plan super m size offset fuel := by
  rw [FileWriter.plan, FileReader.plan, FileWriter.planRound_eq]

namespace FileReader

/-- One round, with what it plans named. -/
theorem planRound_eq (super : SuperBlockMeta) (size : Nat) {id n : Nat} (entry : m.getBlockId p.blockIndexInFileBlock = .ok id)
    (amount : (if 0 < p.blockOffsetInBlock then min size (kBlockSize - p.blockOffsetInBlock)
      else min (size - p.currCount) kBlockSize) = n) :
    planRound super m size p = .ok
      ({ currCount := p.currCount + n
         blockIndexInFileBlock := if size ≤ p.currCount + n then p.blockIndexInFileBlock
          else p.blockIndexInFileBlock + 1
         blockOffsetInBlock := 0
         blocks := p.blocks ++
          [⟨id, p.currCount,
            super.blockDataStartOffset + super.blockSize * id + p.blockOffsetInBlock, n⟩] },
        decide (size ≤ p.currCount + n)) := by
  unfold planRound
  rw [entry, Except.ok_bind]
  by_cases middle : 0 < p.blockOffsetInBlock
  · rw [if_pos middle] at amount ⊢
    dsimp only
    rw [amount]
    by_cases ends : size ≤ p.currCount + n <;> simp [ends]
  · rw [if_neg middle] at amount ⊢
    obtain aligned : p.blockOffsetInBlock = 0 := by omega
    dsimp only
    rw [amount, aligned]
    by_cases ends : size ≤ p.currCount + n <;> simp [ends]

/-- The recursion that transfers are planned by is this loop with its list collected at the end. -/
theorem doWhile_planRound (super : SuperBlockMeta) (m : FileBlockMeta) (size fuel : Nat)
    (p : Planning) :
    (Loop.doWhile (planRound super m size) .fuel fuel p).map Planning.blocks =
      (planBlocks super m size fuel p.currCount p.blockIndexInFileBlock p.blockOffsetInBlock).map
        (p.blocks ++ ·) := by
  induction fuel generalizing p with
  | zero => rfl
  | succ fuel ih =>
    cases entry : m.getBlockId p.blockIndexInFileBlock with
    | error fault =>
      have stops : planRound super m size p = .error fault := by
        unfold planRound
        rw [entry, Except.error_bind]
      rw [Loop.doWhile, stops, planBlocks, entry]
      rfl
    | ok id =>
      have ran := planRound_eq super size entry rfl
      rw [planBlocks, entry, Except.ok_bind]
      dsimp only
      generalize (if 0 < p.blockOffsetInBlock then min size (kBlockSize - p.blockOffsetInBlock)
        else min (size - p.currCount) kBlockSize) = n at ran ⊢
      by_cases ends : size ≤ p.currCount + n
      · rw [decide_eq_true ends, if_pos ends] at ran
        rw [Loop.doWhile_last ran, if_pos ends]
        rfl
      · rw [decide_eq_false ends, if_neg ends] at ran
        rw [Loop.doWhile_next ran, ih, if_neg ends]
        dsimp only
        cases planBlocks super m size fuel (p.currCount + n) (p.blockIndexInFileBlock + 1) 0 with
        | error fault => rfl
        | ok rest =>
          rw [Except.ok_bind]
          simp [Except.map]

theorem plan_eq_planTransfer :
    plan super m size offset (kFileBlockCapacity + 1) = planTransfer super m size offset := by
  have same := doWhile_planRound super m size (kFileBlockCapacity + 1) (.start offset)
  unfold plan planTransfer
  change _ = Except.map id (planBlocks super m size (kFileBlockCapacity + 1) 0
    (offset / kBlockSize % 2 ^ 32) (offset % kBlockSize)) at same
  rw [Except.map_id, id_eq] at same
  rw [← same]
  cases Loop.doWhile (planRound super m size) .fuel (kFileBlockCapacity + 1) (.start offset) <;> rfl

end FileReader

end Rounds

section Partition
open Cuts

/-- The `k`-th segment of a transfer: what of the range lies in the `k`-th entry from that of
`offset` on. -/
def segment (super : SuperBlockMeta) (m : FileBlockMeta) (offset size k : Nat) : BlockData :=
  let blockId := m.blockId (offset / kBlockSize + k)
  { blockId := blockId
    bufferOffset := start kBlockSize offset k
    devOffset := super.blockDataStartOffset + super.blockSize * blockId +
      (offset + start kBlockSize offset k) % kBlockSize
    size := length kBlockSize offset size k }

/-- The loop after `k` rounds, with its variables for one more unless the plan is whole. -/
structure Planned (super : SuperBlockMeta) (m : FileBlockMeta) (offset size k : Nat)
    (p : Planning) : Prop where
  blocks : p.blocks = (List.range k).map (segment super m offset size)
  currCount : k < count kBlockSize offset size → p.currCount = start kBlockSize offset k
  index : k < count kBlockSize offset size → p.blockIndexInFileBlock = offset / kBlockSize + k
  inBlock : k < count kBlockSize offset size →
    p.blockOffsetInBlock = (offset + start kBlockSize offset k) % kBlockSize

variable {super : SuperBlockMeta} {m : FileBlockMeta} {offset size k : Nat} {p : Planning}
variable (positive : 0 < size) (fits : offset + size ≤ kFileBlockCapacity * kBlockSize)
include positive fits

theorem entry_lt (counted : k < count kBlockSize offset size) :
    offset / kBlockSize + k < kFileBlockCapacity := by
  have begins := (start_lt kBlockSize_positive positive).mpr counted
  rw [← div_start kBlockSize_positive]
  exact Nat.div_lt_of_lt_mul (by rw [Nat.mul_comm]; omega)

theorem Planned.start : Planned super m offset size 0 (.start offset) := by
  have first : 0 < count kBlockSize offset size := count_pos kBlockSize_positive positive
  have inside := entry_lt positive fits first
  have capacity : kFileBlockCapacity = 1000 := rfl
  refine ⟨rfl, fun _ => start_zero.symm, fun _ => ?_, fun _ => ?_⟩
  · exact Nat.mod_eq_of_lt (by omega)
  · rw [start_zero]
    rfl

/-- One round plans one segment. Only the first can begin inside its block, and there the size
formula of the first round leaves out the count, which is still zero. -/
theorem Planned.round (counted : k < count kBlockSize offset size)
    (planned : Planned super m offset size k p) :
    ∃ p', FileReader.planRound super m size p =
        .ok (p', decide (k + 1 = count kBlockSize offset size)) ∧
      Planned super m offset size (k + 1) p' := by
  obtain ⟨blocks, currCount, index, inBlock⟩ := planned
  have inside := entry_lt positive fits counted
  have ends := reaches_end kBlockSize_positive positive counted
  have entry : m.getBlockId p.blockIndexInFileBlock = .ok (m.blockId (offset / kBlockSize + k)) := by
    rw [FileBlockMeta.getBlockId, index counted, if_pos inside]
  have amount : (if 0 < p.blockOffsetInBlock then min size (kBlockSize - p.blockOffsetInBlock)
      else min (size - p.currCount) kBlockSize) = length kBlockSize offset size k := by
    rw [inBlock counted, currCount counted]
    cases k with
    | zero =>
      rw [start_zero, Nat.add_zero, Nat.sub_zero, length_zero]
      split
      · rfl
      · next aligned => rw [Nat.eq_zero_of_not_pos aligned, Nat.sub_zero]
    | succ k =>
      rw [mod_start_succ kBlockSize_positive, length_succ kBlockSize_positive]
      exact if_neg (Nat.lt_irrefl 0)
  have ran := FileReader.planRound_eq super size entry amount
  rw [currCount counted, inBlock counted, index counted, decide_eq_decide.mpr ends] at ran
  refine ⟨_, ran, ?_, fun more => ?_, fun more => ?_, fun more => ?_⟩
  · rw [List.range_succ, List.map_append, ← blocks]
    rfl
  · have filled := (length_spec kBlockSize_positive positive counted).2.1
    have later := (start_lt kBlockSize_positive positive).mpr more
    dsimp only
    omega
  · have goes : ¬size ≤ Cuts.start kBlockSize offset k + length kBlockSize offset size k := by omega
    dsimp only
    rw [if_neg goes, Nat.add_assoc]
  · exact (mod_start_succ kBlockSize_positive offset k).symm

/-- The planning of a range inside the table ends, after one round for each block it meets. -/
theorem FileReader.plan_eq {fuel : Nat} (enough : count kBlockSize offset size ≤ fuel) :
    FileReader.plan super m size offset fuel =
      .ok ((List.range (count kBlockSize offset size)).map (segment super m offset size)) := by
  have first : Planned super m offset size 0 (.start offset) := .start positive fits
  have round : ∀ k < count kBlockSize offset size, ∀ p, Planned super m offset size k p →
      ∃ p', FileReader.planRound super m size p =
          .ok (p', decide (k + 1 = count kBlockSize offset size)) ∧
        Planned super m offset size (k + 1) p' :=
    fun _ counted _ planned => planned.round positive fits counted
  obtain ⟨p, ran, planned⟩ : ∃ p, Loop.doWhile (FileReader.planRound super m size) .fuel fuel
      (.start offset) = .ok p ∧ Planned super m offset size (count kBlockSize offset size) p :=
    Loop.doWhile_counted round (count_pos kBlockSize_positive positive) first enough
  rw [FileReader.plan, ran, Except.ok_bind, planned.blocks]

omit fits in
/-- The segments before the `k`-th fill the buffer up to it. -/
theorem sum_segments (counted : k ≤ count kBlockSize offset size) :
    (((List.range k).map (segment super m offset size)).map BlockData.size).sum =
      min size (start kBlockSize offset k) := by
  rw [List.map_map]
  exact sum_length kBlockSize_positive positive counted

/-- The two planning loops end and make the same plan of every range inside the table. It has one
segment for each block that the range meets; the segments lie one behind the other in the buffer and
fill it, and each lies in the block of its own entry. -/
theorem transfer_plan_partition (formatted : super.blockSize = kBlockSize) :
    ∃ plan, (∀ fuel, plan.length ≤ fuel →
        FileReader.plan super m size offset fuel = .ok plan ∧
          FileWriter.plan super m size offset fuel = .ok plan) ∧
      plan.length = (offset + size) ⌈/⌉ kBlockSize - offset / kBlockSize ∧
      (plan.map BlockData.size).sum = size ∧
      ∀ k (inside : k < plan.length),
        plan[k].bufferOffset = ((plan.take k).map BlockData.size).sum ∧
        0 < plan[k].size ∧
        offset / kBlockSize + k < kFileBlockCapacity ∧
        plan[k].blockId = m.blockId (offset / kBlockSize + k) ∧
        (offset + plan[k].bufferOffset) / kBlockSize = offset / kBlockSize + k ∧
        plan[k].devOffset = super.blockDataStartOffset + kBlockSize * plan[k].blockId +
          (offset + plan[k].bufferOffset) % kBlockSize ∧
        (offset + plan[k].bufferOffset) % kBlockSize + plan[k].size ≤ kBlockSize := by
  have long : ((List.range (count kBlockSize offset size)).map (segment super m offset size)).length =
      count kBlockSize offset size := by simp
  refine ⟨(List.range (count kBlockSize offset size)).map (segment super m offset size),
    fun fuel enough => ?_, long, ?_, fun k inside => ?_⟩
  · rw [long] at enough
    rw [FileWriter.plan_eq]
    exact ⟨FileReader.plan_eq positive fits enough, FileReader.plan_eq positive fits enough⟩
  · rw [List.map_map]
    exact sum_count kBlockSize_positive positive
  · have counted : k < count kBlockSize offset size := long ▸ inside
    obtain ⟨some_, _, within⟩ := length_spec kBlockSize_positive positive counted
    have begins := (start_lt kBlockSize_positive positive).mpr counted
    rw [List.getElem_map, List.getElem_range, ← List.map_take, List.take_range,
      Nat.min_eq_left counted.le, sum_segments positive counted.le,
      Nat.min_eq_right begins.le]
    refine ⟨rfl, some_, entry_lt positive fits counted, rfl, div_start kBlockSize_positive offset k,
      ?_, within⟩
    have device : (segment super m offset size k).devOffset = super.blockDataStartOffset +
        super.blockSize * m.blockId (offset / kBlockSize + k) +
          (offset + start kBlockSize offset k) % kBlockSize := rfl
    rw [device, formatted]
    rfl

end Partition

/-- Two blocks' bytes from inside the third block of a file on end inside the fifth. -/
theorem transfer_plan_partition_unaligned :
    let _ := FileSystem.zeroCrc
    ∃ plan, FileWriter.plan (SuperBlock.formatAllMeta (2 ^ 40))
        ⟨0, 0, 0, 0, 0, false, false, fun i => 7 * i⟩ (2 * kBlockSize) (2 * kBlockSize + 5) 3 =
          .ok plan ∧ plan.length = 3 := by
  let _ := FileSystem.zeroCrc
  obtain ⟨plan, ends, long, _⟩ := @transfer_plan_partition (SuperBlock.formatAllMeta (2 ^ 40))
    ⟨0, 0, 0, 0, 0, false, false, fun i => 7 * i⟩ (2 * kBlockSize + 5) (2 * kBlockSize) (by decide)
    (by decide) rfl
  have three : plan.length = 3 := long.trans (by decide)
  exact ⟨plan, (ends 3 three.le).2, three⟩

end BlockFs
