import BlockFs.Exclusion

namespace BlockFs

/-- The faults of the assertions in `ExtendFile`, `ShrinkFile`, `GetFileBlockLock` and
`get_block_id`, of an unchecked file block, and of a loop that does not end. -/
def Fault.OfContent (fault : Fault) : Prop :=
  fault = .itemMapsNotEmpty ∨ fault = .itemMapsEmpty ∨ fault = .fileBlockUsed ∨
    fault = .fileBlockNotEmpty ∨ fault = .fileCutMismatch ∨ fault = .blockIndex ∨
    fault = .nullFileBlock ∨ fault = .fuel

/-- A file block that backs a file lists every block of a transfer inside the file. -/
theorem Backs.plan {slot : FileBlockMeta} {m : FileMeta} (backs : Backs slot m)
    (super : SuperBlockMeta) {size offset : Nat} (positive : 0 < size)
    (inside : offset + size ≤ m.size) :
    ∃ blocks, planTransfer super slot size offset = .ok blocks ∧
      Plan super slot offset size 0 blocks :=
  planTransfer_plan (inside.trans backs.covers) backs.bounded positive

namespace FileSystem

/-- A file has no file block when it is empty, and otherwise exactly one, which is its own and lists
enough blocks. -/
structure WellBacked (s : FileSystem) (f : FilePtr) : Prop where
  empty : (s.fileMeta f).size = 0 → s.attached f = []
  backed : 0 < (s.fileMeta f).size → ∃ b, (s.files f).itemMaps.entries = [⟨0, b⟩] ∧
    (s.fileBlockMetas b).used = true ∧ (s.fileBlockMetas b).fileCut = 0 ∧
    (s.fileBlockMetas b).fh = (s.fileMeta f).fh ∧ (s.fileBlockMetas b).isTemp = (s.fileMeta f).isTemp ∧
    alignUp (s.fileMeta f).size kBlockSize ≤ (s.fileBlockMetas b).usedBlockNum ∧
    (s.fileBlockMetas b).usedBlockNum ≤ 1000

theorem FileRep.wellBacked {s : FileSystem} {f : FilePtr} (rep : s.FileRep f) : s.WellBacked f := by
  cases rep with
  | empty size entries =>
    exact ⟨fun _ => by rw [attached, entries]; rfl, fun positive => absurd size positive.ne'⟩
  | backed b size entries backs =>
    refine ⟨fun zero => absurd zero size.ne', fun _ => ⟨b, entries, backs.used, backs.fileCut, backs.fh,
      backs.isTemp, ?_, backs.bounded⟩⟩
    have covers := backs.covers
    have positive := kBlockSize_positive
    rw [alignUp, Nat.div_le_iff_le_mul_add_pred positive, Nat.mul_comm]
    omega

/-- The argument of the call and its length add up to less than `2 ^ 64`. -/
def InRange (s : FileSystem) : Op → Prop
  | .pwrite _ _ len offset => toU64 offset + len < 2 ^ 64
  | .pread _ len offset => toU64 offset + len < 2 ^ 64
  | .read fd len => ∀ o, s.openFiles.lookup (toU64 fd) = some o → o.appendPos + len < 2 ^ 64
  | _ => True

/-- The transfers that reach the planning loops of `ReadData` and `WriteData`: the file block they
read the ids from, and the size and the offset they ask for. -/
inductive Transfer [Crc32] (s : FileSystem) (env : Env) : Op → FileBlockMeta → Nat → Nat → Prop
  | pread {fd len offset o b} (opened : s.openFiles.lookup fd = some o)
    (starts : len ≠ 0 ∧ toU64 offset < (s.fileMeta o.file).size)
    (item : s.getFileBlock o.file 0 = some b) :
    Transfer s env (.pread fd len offset) (s.fileBlockMetas b)
      (if (s.fileMeta o.file).size < (toU64 offset + len) % 2 ^ 64 then
        (s.fileMeta o.file).size - toU64 offset else len) (toU64 offset)
  | read {fd len o b} (opened : s.openFiles.lookup (toU64 fd) = some o)
    (starts : len ≠ 0 ∧ o.appendPos < (s.fileMeta o.file).size)
    (item : s.getFileBlock o.file 0 = some b) :
    Transfer s env (.read fd len) (s.fileBlockMetas b)
      (if (s.fileMeta o.file).size < (o.appendPos + len) % 2 ^ 64 then
        (s.fileMeta o.file).size - o.appendPos else len) o.appendPos
  | pwrite {fd buffer len offset o b t r} (opened : s.openFiles.lookup fd = some o)
    (nonempty : len ≠ 0)
    (grown : (if (s.fileMeta o.file).size < (toU64 offset + len) % 2 ^ 64 then
        s.ftruncate env o.file ((toU64 offset + len) % 2 ^ 64) else .ok (s, 0)) = .ok (t, r))
    (succeeded : 0 ≤ r) (item : t.getFileBlock o.file 0 = some b) :
    Transfer s env (.pwrite fd buffer len offset) (t.fileBlockMetas b) len (toU64 offset)

section Faults
variable [Crc32] {s s' t : FileSystem} {env : Env} {lost : Lost} {op : Op} {f : FilePtr} {n : Nat}
  {fault : Fault} {r : Int}

theorem Truncation.size (coherent : Coherent s lost) (bound : f < s.nextFile)
    (truncation : Truncation s env f n s' r) (done : 0 ≤ r) : (s'.fileMeta f).size = n := by
  cases truncation with
  | grow _ extension =>
    have slot := extension.sameIndex.metaSlot f
    rw [fileMeta, slot]
    cases extension with
    | refused => exact absurd done (by decide)
    | returned => exact absurd done (by decide)
    | overfull => exact absurd done (by decide)
    | inPlace => rw [resized_fileMetas, Function.update_self]; rfl
    | grown => rw [grown_fileMetas, Function.update_self]; rfl
  | shrink shrinks entries shrinkage =>
    rcases shrinkage.outcome coherent.consistent bound entries shrinks with ⟨rfl, _⟩ | ⟨_, shifted⟩
    · exact absurd done (by decide)
    · exact shifted.size
  | keep same => exact same

theorem Coherent.item (coherent : Coherent s lost) (bound : f < s.nextFile) {b : FileBlockPtr}
    (item : s.getFileBlock f 0 = some b) : Backs (s.fileBlockMetas b) (s.fileMeta f) := by
  cases coherent.consistent.rep f bound with
  | empty _ entries =>
    rw [getFileBlock, AList.lookup, entries] at item
    simp at item
  | backed c _ entries backs =>
    rw [getFileBlock, AList.lookup, entries] at item
    obtain rfl : c = b := by simpa using item
    exact backs

theorem Coherent.has_item (coherent : Coherent s lost) (bound : f < s.nextFile)
    (positive : 0 < (s.fileMeta f).size) : ∃ b, s.getFileBlock f 0 = some b := by
  cases coherent.consistent.rep f bound with
  | empty size _ => omega
  | backed c _ entries _ => exact ⟨c, by rw [getFileBlock, AList.lookup, entries]; simp⟩

omit [Crc32] in
/-- A clipped read stays inside the file. -/
theorem clipped {fileSize offset len : Nat} (range : offset + len < 2 ^ 64) (nonempty : len ≠ 0)
    (starts : offset < fileSize) :
    0 < (if fileSize < (offset + len) % 2 ^ 64 then fileSize - offset else len) ∧
      offset + (if fileSize < (offset + len) % 2 ^ 64 then fileSize - offset else len) ≤ fileSize := by
  rw [Nat.mod_eq_of_lt range]
  split <;> omega

/-- The file a write goes to is large enough for it. -/
theorem grown_size (coherent : Coherent s lost) (ok : env.IoOk) {len offset : Nat}
    (known : s.Accessible f) (range : offset + len < 2 ^ 64)
    (narrow : (s.fileMeta f).size < (offset + len) % 2 ^ 64 → s.Narrow f ((offset + len) % 2 ^ 64))
    (grown : (if (s.fileMeta f).size < (offset + len) % 2 ^ 64 then
      s.ftruncate env f ((offset + len) % 2 ^ 64) else .ok (s, 0)) = .ok (t, r)) (done : 0 ≤ r) :
    offset + len ≤ (t.fileMeta f).size ∧ f < t.nextFile ∧ ∃ lost', Coherent t lost' := by
  have here := known.registered coherent.registered
  have bound := coherent.registered.bound here
  have whole := Nat.mod_eq_of_lt range
  split at grown
  · next grows =>
    obtain ⟨u, r', run, truncation⟩ := ftruncate_cases coherent.consistent ok bound (narrow grows)
    rw [run] at grown
    obtain ⟨rfl, rfl⟩ := Prod.mk.inj (Except.ok.inj grown)
    obtain ⟨lost', _, _, coherent'⟩ := truncation.coherent coherent here
    have size := truncation.size coherent bound done
    have after := (truncation.accessible coherent known).registered coherent'.registered
    exact ⟨by omega, coherent'.registered.bound after, lost', coherent'⟩
  · next fits =>
    obtain ⟨rfl, _⟩ := Prod.mk.inj (Except.ok.inj grown)
    exact ⟨by omega, bound, lost, coherent⟩

/-- Every transfer of a call in range lies in the blocks its file block lists. -/
theorem Transfer.plan (coherent : Coherent s lost) (ok : env.IoOk) (narrow : s.NarrowCall op)
    (range : s.InRange op) {m : FileBlockMeta} {size offset : Nat}
    (transfer : Transfer s env op m size offset) (super : SuperBlockMeta) :
    ∃ blocks, planTransfer super m size offset = .ok blocks ∧ Plan super m offset size 0 blocks := by
  have opens {fd : Nat} {o : OpenFile} (opened : s.openFiles.lookup fd = some o) :
      s.openedFile fd = some o.file := by rw [openedFile, opened]; rfl
  have bound {fd : Nat} {o : OpenFile} (opened : s.openFiles.lookup fd = some o) :
      o.file < s.nextFile :=
    coherent.registered.bound (coherent.registered.opens fd _ (opens opened))
  cases transfer with
  | @pread fd len at_ o b opened starts item =>
    obtain ⟨positive, inside⟩ := clipped range starts.1 starts.2
    exact (coherent.item (bound opened) item).plan super positive inside
  | read opened starts item =>
    obtain ⟨positive, inside⟩ := clipped (range _ opened) starts.1 starts.2
    exact (coherent.item (bound opened) item).plan super positive inside
  | @pwrite fd buffer _ at_ o b t r opened nonempty grown done item =>
    have target (grows : (s.fileMeta o.file).size < (toU64 at_ + size) % 2 ^ 64) :
        s.Narrow o.file ((toU64 at_ + size) % 2 ^ 64) := by
      refine narrow _ _ ?_
      simp only [ftruncateCall, opens opened]
      rw [if_pos ⟨nonempty, grows⟩]
    obtain ⟨inside, bound', _, coherent'⟩ :=
      grown_size coherent ok (.inl ⟨fd, opens opened⟩) range target grown done
    exact (coherent'.item bound' item).plan super (Nat.pos_of_ne_zero nonempty) inside

omit [Crc32] in
theorem pread_fault {fd len offset : Nat} {o : OpenFile} {buffer : Nat → UInt8}
    (plan : ∀ b, s.getFileBlock o.file 0 = some b → len ≠ 0 ∧ offset < (s.fileMeta o.file).size →
      ∃ blocks, planTransfer s.superMeta (s.fileBlockMetas b)
        (if (s.fileMeta o.file).size < (offset + len) % 2 ^ 64 then
          (s.fileMeta o.file).size - offset else len) offset = .ok blocks)
    (stops : s.pread fd o buffer len offset = .error fault) : fault = .blockLock := by
  dsimp only [pread] at stops
  split at stops
  · simp at stops
  · next starts =>
    unfold readData at stops
    cases item : s.getFileBlock o.file 0 with
    | none => simp [item] at stops
    | some b =>
      obtain ⟨blocks, planned⟩ := plan b item (by omega)
      rw [item] at stops
      simp only [planned, Except.ok_bind] at stops
      cases moved : readBlocks s.disk blocks buffer with
      | error fault' =>
        rw [moved] at stops
        obtain rfl := Except.error.inj stops
        exact readBlocks_fault moved
      | ok result => simp [moved] at stops

omit [Crc32] in
theorem getOpenFile_lookup {fd : Nat} {o : OpenFile} (found : s.getOpenFile fd = .ok o) :
    s.openFiles.lookup fd = some o := by
  rw [getOpenFile] at found
  split at found
  · simp at found
  · next there => exact there.trans (congrArg some (Except.ok.inj found))

theorem pwrite_fault (coherent : Coherent s lost) (ok : env.IoOk) {fd len : Nat} {offset : Int}
    {o : OpenFile} {buffer : Nat → UInt8} (narrow : s.NarrowCall (.pwrite fd buffer len offset))
    (range : s.InRange (.pwrite fd buffer len offset)) (found : s.getOpenFile fd = .ok o)
    (stops : s.pwrite env fd o buffer len (toU64 offset) = .error fault) : fault = .blockLock := by
  have opened := getOpenFile_lookup found
  have known : s.Accessible o.file := .inl ⟨fd, getOpenFile_ok found⟩
  dsimp only [pwrite] at stops
  split at stops
  · simp at stops
  · next nonempty =>
    have target (grows : (s.fileMeta o.file).size < (toU64 offset + len) % 2 ^ 64) :
        s.Narrow o.file ((toU64 offset + len) % 2 ^ 64) := by
      refine narrow _ _ ?_
      simp only [ftruncateCall, getOpenFile_ok found]
      rw [if_pos ⟨nonempty, grows⟩]
    have finish (t : FileSystem) (r : Int)
        (grown : (if (s.fileMeta o.file).size < (toU64 offset + len) % 2 ^ 64 then
          s.ftruncate env o.file ((toU64 offset + len) % 2 ^ 64) else .ok (s, 0)) = .ok (t, r))
        (writing : (if r < 0 then .ok (t, -1)
          else (t.stamped env o.file).writeData fd o buffer len (toU64 offset)) = .error fault) :
        fault = .blockLock := by
      split at writing
      · simp at writing
      · next done =>
        have done : 0 ≤ r := by omega
        obtain ⟨inside, bound, _, coherent'⟩ := grown_size coherent ok known range target grown done
        obtain ⟨b, item⟩ := coherent'.has_item bound (by omega)
        obtain ⟨blocks, planned, _⟩ :=
          (Transfer.pwrite opened nonempty grown done item).plan coherent ok narrow range t.superMeta
        obtain ⟨files, super, slots, _⟩ := stamped_frame t env o.file
        unfold writeData getFileBlock at writing
        rw [files, show (t.files o.file).itemMaps.lookup 0 = some b from item] at writing
        simp only [super, slots, planned, Except.ok_bind] at writing
        rcases Except.bind_eq_error.mp writing with moving | ⟨_, _, finished⟩
        · exact writeBlocks_fault moving
        · simp at finished
    split at stops
    · next grows =>
      obtain ⟨u, r, run, _⟩ := ftruncate_of_same coherent ok ⟨rfl, rfl⟩ known (target grows)
      rw [run, Except.ok_bind] at stops
      exact finish u r (by rw [if_pos grows, run]) stops
    · next fits => exact finish s 0 (if_neg fits) stops

omit [Crc32] in
theorem addDirectory_fault {parent : Option DirectoryPtr} {child : DirectoryPtr}
    (stops : s.addDirectory parent child = .error fault) :
    fault = .nullParent ∨ fault = .childRemoved := by
  unfold addDirectory at stops
  grind

theorem createDirectory_fault {path : Name} (stops : s.createDirectory env path = .error fault) :
    fault = .nullParent ∨ fault = .childRemoved := by
  unfold createDirectory at stops
  grind only [Except.bind_eq_error, addDirectory_fault]

theorem readdir_fault {stream : Nat} (stops : s.call env (.readdir stream) = .error fault) :
    fault = .direntOverflow := by
  have named (child : DirectoryPtr) (fails : s.scanChildDirectory child = .error fault) :
      fault = .direntOverflow := by
    unfold scanChildDirectory at fails
    grind only
  have scanned (dir : DirectoryPtr) (fails : s.scanDir dir = .error fault) :
      fault = .direntOverflow := by
    rcases Except.bind_eq_error.mp fails with entries | ⟨_, _, done⟩
    · obtain ⟨child, _, long⟩ := Except.mapM_eq_error entries
      exact named child.2 long
    · simp at done
  rw [call] at stops
  rcases Except.bind_eq_error.mp stops with reading | ⟨_, _, done⟩
  · unfold readDirectory at reading
    grind only [Except.bind_eq_error]
  · simp at done

/-- A call in range stops for want of a block lock, at the parent of a directory, or at a name too
long for a directory entry, and never in the content of a file. -/
theorem call_fault (coherent : Coherent s lost) (ok : env.IoOk) (narrow : s.NarrowCall op)
    (range : s.InRange op) (stops : s.call env op = .error fault) : ¬fault.OfContent := by
  have apart (cause : fault = .blockLock ∨ fault = .nullParent ∨ fault = .childRemoved ∨
      fault = .direntOverflow) : ¬fault.OfContent := by
    rcases cause with rfl | rfl | rfl | rfl <;> simp [Fault.OfContent]
  cases op with
  | createFile path => simp [call] at stops
  | openFile path flags =>
    rcases openTarget_cases coherent ok path flags narrow with
      ⟨_, u, target, run, _⟩ | ⟨f, t, u, r, _, _, _, _, run⟩
    · rw [call, openFile, run] at stops
      cases target <;> simp at stops
    · rw [call, openFile, run] at stops
      by_cases failed : r < 0 <;> simp [failed] at stops
  | close fd => simp [call] at stops
  | dup oldfd => simp [call] at stops
  | unlink path => simp [call] at stops
  | rename oldpath newpath => simp [call] at stops
  | truncatePath path size =>
    rw [call, truncatePath] at stops
    cases found : s.getCreatedFile path with
    | error e => simp [found] at stops
    | ok f =>
      have target : s.ftruncateCall (.truncatePath path size) = some (f, toU64 size) := by
        simp only [ftruncateCall, found]
      obtain ⟨u, r, run, _⟩ := ftruncate_of_same coherent ok ⟨rfl, rfl⟩
        (getCreatedFile_accessible found) (narrow f _ target)
      simp [found, run] at stops
  | truncateFd fd size =>
    rw [call, truncateFd] at stops
    cases found : s.getOpenFile (toU64 fd) with
    | error e => simp [found] at stops
    | ok o =>
      have opened := getOpenFile_ok found
      have target : s.ftruncateCall (.truncateFd fd size) = some (o.file, toU64 size) := by
        rw [ftruncateCall, opened]
        rfl
      obtain ⟨u, r, run, _⟩ := ftruncate_of_same coherent ok ⟨rfl, rfl⟩ (.inl ⟨_, opened⟩)
        (narrow _ _ target)
      simp [found, run] at stops
  | pwrite fd buffer len offset =>
    rw [call, pwriteFile] at stops
    cases found : s.getOpenFile fd with
    | error e => simp [found] at stops
    | ok o =>
      rw [found] at stops
      exact apart (.inl (pwrite_fault coherent ok narrow range found stops))
  | pread fd len offset =>
    rw [call, preadFile] at stops
    cases found : s.getOpenFile fd with
    | error e => simp [found] at stops
    | ok o =>
      rw [found] at stops
      rcases Except.bind_eq_error.mp stops with reading | ⟨_, _, done⟩
      · refine apart (.inl (pread_fault (fun b item starts => ?_) reading))
        obtain ⟨blocks, planned, _⟩ := (Transfer.pread (getOpenFile_lookup found) starts item).plan
          coherent ok narrow range s.superMeta
        exact ⟨blocks, planned⟩
      · simp at done
  | read fd len =>
    rw [call, readFile] at stops
    cases found : s.getOpenFile (toU64 fd) with
    | error e => simp [found] at stops
    | ok o =>
      rw [found] at stops
      rcases Except.bind_eq_error.mp stops with reading | ⟨_, _, done⟩
      · refine apart (.inl (pread_fault (fun b item starts => ?_) reading))
        obtain ⟨blocks, planned, _⟩ := (Transfer.read (getOpenFile_lookup found) starts item).plan
          coherent ok narrow range s.superMeta
        exact ⟨blocks, planned⟩
      · simp at done
  | seek fd offset whence => simp [call] at stops
  | fcntl fd lockType => simp [call] at stops
  | mkdir path =>
    rcases createDirectory_fault stops with rfl | rfl
    · exact apart (.inr (.inl rfl))
    · exact apart (.inr (.inr (.inl rfl)))
  | rmdir path => simp [call] at stops
  | opendir path =>
    simp only [call] at stops
    split at stops <;> simp at stops
  | readdir stream => exact apart (.inr (.inr (.inr (readdir_fault stops))))
  | closedir stream => simp [call] at stops

/-- In a run whose truncations need no more blocks than 32 bits can count, every live file is well
backed. A call whose offset and size stay below `2 ^ 64` then fails none of the assertions about
contents, uses no null file block, and reads only listed entries of a file block. -/
theorem Reachable.assertionsHold (reach : Reachable NarrowCall s) :
    (∀ f ∈ s.liveFiles, s.WellBacked f) ∧
      ∀ env op, env.IoOk → s.NarrowCall op → s.InRange op →
        (∀ fault, s.call env op = .error fault → ¬fault.OfContent) ∧
          ∀ m size offset, Transfer s env op m size offset →
            ∃ blocks, planTransfer s.superMeta m size offset = .ok blocks ∧
              Plan s.superMeta m offset size 0 blocks := by
  obtain ⟨lost, coherent⟩ := reach.coherent
  refine ⟨fun f live => ?_, fun env op ok narrow range => ⟨fun fault stops => ?_, ?_⟩⟩
  · exact (coherent.consistent.rep f (coherent.registered.live_lt live)).wellBacked
  · exact call_fault coherent ok narrow range stops
  · intro m size offset transfer
    exact transfer.plan coherent ok narrow range s.superMeta

omit [Crc32] in
theorem Reachable.assertionsHold_shrunk :
    ∃ s : FileSystem, s.blockIds 0 = [0, 3] ∧ 0 ∈ s.liveFiles ∧ s.WellBacked 0 := by
  let _ := zeroCrc
  obtain ⟨s, reach, ids, live⟩ := Reachable.exists_run
    [.openFile ['/', 'a'] 0o102, .truncateFd 0 12582912, .truncateFd 0 6291456]
    (fun s => s.blockIds 0 = [0, 3] ∧ 0 ∈ s.liveFiles) (freshDevice_fresh 8 fun _ => 0) steadyEnv_ok
    isNarrowCall_sound (by decide +kernel)
  exact ⟨s, ids, live, reach.assertionsHold.1 0 live⟩

omit [Crc32] in
/-- A write of one byte at offset -1 takes the end of its range for 0, grows nothing and uses the
file block an empty file does not have. -/
theorem not_assertionsHold :
    ∃ s, @Reachable zeroCrc anyCall s ∧
      @call zeroCrc s steadyEnv (.pwrite 0 (fun _ => 0) 1 (-1)) = .error .nullFileBlock := by
  let _ := zeroCrc
  obtain ⟨s, reach, stops⟩ := Reachable.exists_run [.openFile ['/', 'a'] 0o102]
    (fun s => (match s.call steadyEnv (.pwrite 0 (fun _ => 0) 1 (-1)) with
      | .ok _ => none
      | .error fault => some fault) = some .nullFileBlock)
    (freshDevice_fresh 8 fun _ => 0) steadyEnv_ok anyCall_sound (by decide +kernel)
  refine ⟨s, reach, ?_⟩
  split at stops
  · simp at stops
  · next fault result => rw [result, Option.some.inj stops]

end Faults

end FileSystem

end BlockFs
