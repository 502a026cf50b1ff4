import BlockFs.MetaDefines
import Mathlib.Data.List.Range

namespace BlockFs.FileBlockMeta

variable {m : FileBlockMeta}

theorem ids_length (m : FileBlockMeta) : m.ids.length = m.usedBlockNum := by simp [ids]

theorem ids_getElem? {i : Nat} (bound : i < m.usedBlockNum) : m.ids[i]? = some (m.blockId i) := by
  simp [ids, bound]

theorem mem_ids {id : Nat} : id ∈ m.ids ↔ ∃ i < m.usedBlockNum, m.blockId i = id := by
  simp [ids]

theorem ids_congr {m' : FileBlockMeta} (used : m'.usedBlockNum = m.usedBlockNum)
    (table : m'.blockId = m.blockId) : m'.ids = m.ids := by
  rw [ids, ids, used, table]

@[simp] theorem ids_sealed [Crc32] : m.sealed.ids = m.ids := rfl

@[simp] theorem ids_clear : m.clear.ids = [] := rfl

/-- Only the block table and its count differ. -/
def SameSlot (m m' : FileBlockMeta) : Prop :=
  m' = { m with blockId := m'.blockId, usedBlockNum := m'.usedBlockNum }

theorem SameSlot.refl (m : FileBlockMeta) : SameSlot m m := rfl

theorem SameSlot.trans {m₁ m₂ m₃ : FileBlockMeta} (first : SameSlot m₁ m₂) (second : SameSlot m₂ m₃) :
    SameSlot m₁ m₃ := by
  unfold SameSlot at *
  rw [second, first]

theorem addBlockId_of_lt (id : Nat) (room : m.usedBlockNum < kFileBlockCapacity) :
    m.addBlockId id =
      { m with blockId := Function.update m.blockId m.usedBlockNum id,
               usedBlockNum := m.usedBlockNum + 1 } := by
  have open_ : m.isBlockFull = false := by
    simp only [isBlockFull, beq_eq_false_iff_ne]
    omega
  rw [addBlockId, open_]
  rfl

theorem addBlockId_ids (id : Nat) (room : m.usedBlockNum < kFileBlockCapacity) :
    (m.addBlockId id).ids = m.ids ++ [id] := by
  rw [addBlockId_of_lt id room]
  simp only [ids, List.range_succ, List.map_append, List.map_cons, List.map_nil,
    Function.update_self]
  congr 1
  refine List.map_congr_left fun i member => ?_
  have below : i < m.usedBlockNum := List.mem_range.mp member
  exact Function.update_of_ne (by omega) _ _

theorem addBlockId_sameSlot (m : FileBlockMeta) (id : Nat) : SameSlot m (m.addBlockId id) := by
  unfold addBlockId
  split
  · exact SameSlot.refl m
  · rfl

theorem addBlockId_usedBlockNum (id : Nat) (room : m.usedBlockNum < kFileBlockCapacity) :
    (m.addBlockId id).usedBlockNum = m.usedBlockNum + 1 := by
  rw [addBlockId_of_lt id room]

/-- The fill loop succeeds exactly when the ids fit in the table. -/
theorem fill_of_fits (newIds : List Nat)
    (fits : m.usedBlockNum + newIds.length ≤ kFileBlockCapacity) :
    (m.fill newIds).2 = true ∧ (m.fill newIds).1.ids = m.ids ++ newIds ∧
      SameSlot m (m.fill newIds).1 := by
  induction newIds generalizing m with
  | nil => exact ⟨rfl, by simp [fill], SameSlot.refl m⟩
  | cons id rest ih =>
    rw [List.length_cons] at fits
    have room : m.usedBlockNum < kFileBlockCapacity := by omega
    have open_ : m.isBlockFull = false := by
      simp only [isBlockFull, beq_eq_false_iff_ne]
      omega
    have more : (m.addBlockId id).usedBlockNum + rest.length ≤ kFileBlockCapacity := by
      rw [addBlockId_usedBlockNum id room]
      omega
    obtain ⟨done, table, same⟩ := ih more
    rw [fill, open_]
    refine ⟨done, ?_, (addBlockId_sameSlot m id).trans same⟩
    rw [if_neg Bool.false_ne_true, table, addBlockId_ids id room, List.append_assoc,
      List.singleton_append]

/-- A fill loop that runs out of room has entered as many ids as the table takes. -/
theorem fill_of_overflow (newIds : List Nat) (bounded : m.usedBlockNum ≤ kFileBlockCapacity)
    (overflow : kFileBlockCapacity < m.usedBlockNum + newIds.length) :
    (m.fill newIds).2 = false ∧
      (m.fill newIds).1.ids = m.ids ++ newIds.take (kFileBlockCapacity - m.usedBlockNum) ∧
      SameSlot m (m.fill newIds).1 := by
  induction newIds generalizing m with
  | nil =>
    simp only [List.length_nil] at overflow
    omega
  | cons id rest ih =>
    rw [List.length_cons] at overflow
    by_cases full : m.usedBlockNum = kFileBlockCapacity
    · have closed : m.isBlockFull = true := by simp [isBlockFull, full]
      rw [fill, closed, full]
      exact ⟨rfl, by simp, SameSlot.refl m⟩
    · have room : m.usedBlockNum < kFileBlockCapacity := by omega
      have open_ : m.isBlockFull = false := by simp [isBlockFull, full]
      have used := addBlockId_usedBlockNum id room
      obtain ⟨failed, table, same⟩ := ih (m := m.addBlockId id) (by omega) (by omega)
      rw [fill, open_]
      refine ⟨failed, ?_, (addBlockId_sameSlot m id).trans same⟩
      have step : kFileBlockCapacity - m.usedBlockNum =
          kFileBlockCapacity - (m.usedBlockNum + 1) + 1 := by omega
      rw [if_neg Bool.false_ne_true, table, addBlockId_ids id room, used, step, List.take_succ_cons,
        List.append_assoc, List.singleton_append]

/-- The child of a shrinking file inherits the ids from entry `j` on until it has `blockNum`. -/
theorem inherit_ids (m old : FileBlockMeta) (blockNum fuel j copied : Nat)
    (short : copied < blockNum) (enough : blockNum - copied ≤ fuel)
    (room : m.usedBlockNum + (blockNum - copied) ≤ kFileBlockCapacity) :
    (old.inherit blockNum fuel j copied m).ids =
        m.ids ++ (List.range' j (blockNum - copied)).map old.blockId ∧
      SameSlot m (old.inherit blockNum fuel j copied m) := by
  induction fuel generalizing m j copied with
  | zero => omega
  | succ fuel ih =>
    have open_ : m.usedBlockNum < kFileBlockCapacity := by omega
    have used := addBlockId_usedBlockNum (old.blockId j) open_
    have entry := addBlockId_sameSlot m (old.blockId j)
    rw [inherit]
    split
    · next last =>
      have one : blockNum - copied = 1 := by omega
      exact ⟨by rw [addBlockId_ids _ open_, one]; rfl, entry⟩
    · next more =>
      obtain ⟨table, same⟩ := ih (m.addBlockId (old.blockId j)) (j + 1) (copied + 1)
        (by omega) (by omega) (by omega)
      have step : blockNum - copied = blockNum - (copied + 1) + 1 := by omega
      refine ⟨?_, entry.trans same⟩
      rw [table, addBlockId_ids _ open_, step, List.range'_succ, List.map_cons, List.append_assoc,
        List.singleton_append]

theorem ids_take {n : Nat} (bound : n ≤ m.usedBlockNum) :
    m.ids.take n = (List.range' 0 n).map m.blockId := by
  rw [ids, ← List.map_take, List.take_range, Nat.min_eq_left bound, List.range_eq_range']

end BlockFs.FileBlockMeta
