import BlockFs.Operations
import BlockFs.BlockTable

namespace BlockFs

namespace Disk

@[simp] theorem apply_size (d : Disk) (w : MetaWrite) : (d.apply w).size = d.size := by
  cases w <;> rfl

@[simp] theorem apply_data (d : Disk) (w : MetaWrite) : (d.apply w).data = d.data := by
  cases w <;> rfl

@[simp] theorem apply_superMeta (d : Disk) (w : MetaWrite) :
    (d.apply w).superMeta = d.superMeta := by
  cases w <;> rfl

@[simp] theorem replay_nil (d : Disk) : d.replay [] = d := rfl

@[simp] theorem replay_cons (d : Disk) (w : MetaWrite) (ws : List MetaWrite) :
    d.replay (w :: ws) = (d.apply w).replay ws := rfl

theorem replay_append (d : Disk) (ws ws' : List MetaWrite) :
    d.replay (ws ++ ws') = (d.replay ws).replay ws' := by
  rw [replay, replay, replay, List.foldl_append]

@[simp] theorem replay_size (d : Disk) (ws : List MetaWrite) : (d.replay ws).size = d.size := by
  induction ws generalizing d with
  | nil => rfl
  | cons w ws ih => rw [replay_cons, ih, apply_size]

@[simp] theorem replay_data (d : Disk) (ws : List MetaWrite) : (d.replay ws).data = d.data := by
  induction ws generalizing d with
  | nil => rfl
  | cons w ws ih => rw [replay_cons, ih, apply_data]

@[simp] theorem replay_superMeta (d : Disk) (ws : List MetaWrite) :
    (d.replay ws).superMeta = d.superMeta := by
  induction ws generalizing d with
  | nil => rfl
  | cons w ws ih => rw [replay_cons, ih, apply_superMeta]

end Disk

namespace FileSystem

/-- The state after metadata writes that all reached the device. -/
def persist (s : FileSystem) (writes : List MetaWrite) : FileSystem :=
  { s with
    disk := s.disk.replay writes
    journal := s.journal ++ writes
    attempts := s.attempts + writes.length }

theorem persist_persist (s : FileSystem) (ws ws' : List MetaWrite) :
    (s.persist ws).persist ws' = s.persist (ws ++ ws') := by
  simp [persist, Disk.replay_append, Nat.add_assoc]

/-- The page of slots that is written for slot `fh`. -/
def filePage (s : FileSystem) (fh : Nat) (slots : Nat → FileMeta) : MetaWrite :=
  .filePage (pageAlignIndex (kBlockFsPageSize / s.superMeta.fileMetaSize) fh) slots

section Writers
variable [Crc32] {env : Env}

/-- One slot is refreshed and its page written. -/
def saveFile (s : FileSystem) (fh : Nat) : FileSystem :=
  let slots := Function.update s.fileMetas fh (s.fileMetas fh).sealed
  { s with fileMetas := slots }.persist [s.filePage fh slots]

def saveFileBlock (s : FileSystem) (b : FileBlockPtr) : FileSystem :=
  { s with fileBlockMetas := Function.update s.fileBlockMetas b (s.fileBlockMetas b).sealed }.persist
    [.fileBlock b (s.fileBlockMetas b).sealed]

omit [Crc32] in
theorem pwriteDirect_ok (ok : env.IoOk) (s : FileSystem) (w : MetaWrite) :
    s.pwriteDirect env w = (s.persist [w], true) := by
  rw [pwriteDirect, if_pos (ok.1 _)]
  rfl

theorem writeFileMeta_ok (ok : env.IoOk) (s : FileSystem) (fh : Nat) :
    s.writeFileMeta env fh = (s.saveFile fh, true) := by
  rw [writeFileMeta, pwriteDirect_ok ok]
  rfl

theorem writeFileBlockMeta_ok (ok : env.IoOk) (s : FileSystem) (b : FileBlockPtr) :
    s.writeFileBlockMeta env b = (s.saveFileBlock b, true) := by
  rw [writeFileBlockMeta, pwriteDirect_ok ok]
  simp [saveFileBlock, persist]

theorem writeDirMeta_ok (ok : env.IoOk) (s : FileSystem) (dh : Nat) :
    s.writeDirMeta env dh =
      ({ s with dirMetas := Function.update s.dirMetas dh (s.dirMetas dh).sealed }.persist
        [.dirPage (pageAlignIndex (kBlockFsPageSize / s.superMeta.dirMetaSize) dh)
          (Function.update s.dirMetas dh (s.dirMetas dh).sealed)], true) := by
  rw [writeDirMeta, pwriteDirect_ok ok]
  rfl

end Writers

end FileSystem

end BlockFs
