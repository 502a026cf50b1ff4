import BlockFs.Supplies
import BlockFs.Shelves
import BlockFs.Runs

namespace BlockFs.FileSystem

/-- A file that an index or a descriptor leads to. -/
def Live (s : FileSystem) (f : FilePtr) : Prop :=
  (∃ x, s.createdFhs.lookup x = some f) ∨ (∃ K, s.createdFiles.lookup K = some f) ∨
    ∃ fd, s.openedFile fd = some f

/-- A directory that an index leads to. -/
def IsCreated (s : FileSystem) (d : DirectoryPtr) : Prop :=
  (∃ p, s.createdDirs.lookup p = some d) ∨ ∃ x, s.createdDhs.lookup x = some d

/-- The three free lists list nothing twice, nothing that is in use and only what is clean, so that
an allocation from a list that is not empty succeeds. -/
structure FreeListsSound (s : FileSystem) : Prop where
  fhs : s.freeFhs.Nodup
  dhs : s.freeDhs.Nodup
  fbhs : s.freeFbhs.Nodup
  files : ∀ f, s.Live f →
    (s.files f).metaSlot ∉ s.freeFhs ∧ ∀ b ∈ s.attached f, b ∉ s.freeFbhs
  directories : ∀ d, s.IsCreated d → (s.directories d).metaSlot ∉ s.freeDhs
  cleanFhs : ∀ i ∈ s.freeFhs,
    (s.fileMetas i).used = false ∧ (s.fileMetas i).size = 0 ∧ (s.fileMetas i).fh = i
  cleanDhs : ∀ x ∈ s.freeDhs, (s.dirMetas x).used = false ∧ (s.dirMetas x).dh = x
  cleanFbhs : ∀ b ∈ s.freeFbhs,
    (s.fileBlockMetas b).used = false ∧ (s.fileBlockMetas b).usedBlockNum = 0
  newFile : s.freeFhs ≠ [] → ∀ dh nameOf isTemp, (s.newFreeFile dh nameOf isTemp).2.isSome
  newMeta : s.freeFhs ≠ [] → ∀ dh name, (s.newFreeFileMeta dh name).2.isSome
  newDirectory : s.freeDhs ≠ [] →
    ∀ env dirname, (s.newFreeDirectoryNolock env dirname).2.isSome
  newFileBlock : s.freeFbhs ≠ [] → ∃ t b, s.getFileBlockLock = .ok (t, some b)

section Allocation
variable {s : FileSystem} {fhs fbhs : Multiset Nat}

theorem Stocked.live_lt (stocked : Stocked s fhs fbhs) {f : FilePtr} (live : s.Live f) :
    f < s.nextFile := by
  rcases live with ⟨x, found⟩ | ⟨K, found⟩ | ⟨fd, found⟩
  · exact stocked.live x f found
  · exact stocked.names K f found
  · exact stocked.opens fd f found

theorem Stocked.newFreeFile_isSome (stocked : Stocked s fhs fbhs) (filled : s.freeFhs ≠ []) (dh : Nat)
    (nameOf : Nat → Name) (isTemp : Bool) : (s.newFreeFile dh nameOf isTemp).2.isSome := by
  cases free : s.freeFhs with
  | nil => exact absurd free filled
  | cons x rest =>
    obtain ⟨unused, empty⟩ := stocked.cleanFhs x (by simp [free])
    rw [newFreeFile, free]
    dsimp only
    rw [if_neg (by simp [unused, empty, stocked.slots])]
    rfl

theorem Stocked.newFreeFileMeta_isSome (stocked : Stocked s fhs fbhs) (filled : s.freeFhs ≠ [])
    (dh : Nat) (name : Name) : (s.newFreeFileMeta dh name).2.isSome := by
  cases free : s.freeFhs with
  | nil => exact absurd free filled
  | cons x rest =>
    obtain ⟨unused, empty⟩ := stocked.cleanFhs x (by simp [free])
    rw [FileSystem.newFreeFileMeta, free]
    dsimp only
    rw [if_neg (by simp [unused, empty, stocked.slots])]
    rfl

theorem Stocked.getFileBlockLock_ok (stocked : Stocked s fhs fbhs) (filled : s.freeFbhs ≠ []) :
    ∃ t b, s.getFileBlockLock = .ok (t, some b) := by
  cases free : s.freeFbhs with
  | nil => exact absurd free filled
  | cons b rest =>
    obtain ⟨unused, empty⟩ := stocked.cleanFbhs b (by simp [free])
    rw [getFileBlockLock, free]
    dsimp only
    rw [if_neg (by simp [unused]), if_neg (by simp [empty])]
    exact ⟨_, _, rfl⟩

theorem Sheltered.newFreeDirectoryNolock_isSome (sheltered : Sheltered s) (filled : s.freeDhs ≠ [])
    (env : Env) (dirname : Name) : (s.newFreeDirectoryNolock env dirname).2.isSome := by
  cases free : s.freeDhs with
  | nil => exact absurd free filled
  | cons x rest =>
    have unused := sheltered.clean.unused x (by simp [free])
    rw [newFreeDirectoryNolock, free]
    dsimp only
    rw [if_neg (by simp [unused, sheltered.housed.slots])]
    rfl

theorem FreeListsSound.of_invariants (settled : Settled s) (sheltered : Sheltered s) :
    FreeListsSound s := by
  obtain ⟨_, fhs, fbhs, stocked⟩ := settled
  refine
    { fhs := stocked.handles.free_nodup (Multiset.nodup_range _)
      dhs := sheltered.clean.nodup
      fbhs := stocked.fileBlocks.free_nodup (Multiset.nodup_range _)
      files := fun f live => ?_
      directories := fun d created => ?_
      cleanFhs := fun i member => ?_
      cleanDhs := fun x member => ⟨sheltered.clean.unused x member, sheltered.housed.slots x⟩
      cleanFbhs := stocked.cleanFbhs
      newFile := stocked.newFreeFile_isSome
      newMeta := stocked.newFreeFileMeta_isSome
      newDirectory := sheltered.newFreeDirectoryNolock_isSome
      newFileBlock := stocked.getFileBlockLock_ok }
  · have bound := stocked.live_lt live
    exact ⟨stocked.metaSlot_not_free bound, fun b => stocked.attached_not_free bound⟩
  · have bound : d < s.nextDirectory := by
      rcases created with ⟨p, found⟩ | ⟨x, found⟩
      · exact sheltered.housed.paths p d found
      · exact (sheltered.housed.handles x d found).1
    exact sheltered.housed.fresh d bound
  · obtain ⟨unused, empty⟩ := stocked.cleanFhs i member
    exact ⟨unused, empty, stocked.slots i⟩

end Allocation

section Run
variable [Crc32] {s : FileSystem} {guard : FileSystem → Op → Prop}

/-- The stock and the directories are in order in every state of every run. -/
theorem Reachable.settled (reach : Reachable guard s) : Settled s ∧ Sheltered s := by
  refine reach.invariant (fun s => Settled s ∧ Sheltered s) (fun s fresh => ?_)
    fun s e s' hyp ok step => ?_
  · obtain ⟨d, env, attempts, rfl, large⟩ := fresh.eq_mounted
    refine ⟨settled_mounted large env attempts, (coherent_mounted large env attempts).housed, ?_, ?_⟩
    · exact (coherent_mounted large env attempts).housed.nodup
    · intro x member
      have bounds : 1 ≤ x := (List.mem_range'_1.mp member).1
      have distinct : x ≠ 0 := by omega
      have bare : (mounted d env attempts).dirMetas x = formattedDir x :=
        Function.update_of_ne distinct _ _
      rw [bare]
      rfl
  · obtain ⟨r, result⟩ := step.call
    exact ⟨hyp.1.call ok.1 result, hyp.2.call result⟩

/-- In every state of every run the free lists are sound. -/
theorem Reachable.freeListsSound (reach : Reachable anyCall s) : FreeListsSound s :=
  .of_invariants reach.settled.1 reach.settled.2

omit [Crc32] in
/-- A run that takes slots of every kind and gives a file block back. -/
theorem Reachable.freeListsSound_recycled :
    ∃ s : FileSystem, s.nextFile = 2 ∧ s.nextDirectory = 2 ∧ s.freeFbhs.head? = some 2 ∧
      (s.fileBlockMetas 0).used = false ∧ FreeListsSound s := by
  let _ := zeroCrc
  obtain ⟨s, reach, files, dirs, head, back⟩ := Reachable.exists_run
    [.mkdir ['/', 'd'], .openFile ['/', 'a'] 0o102, .truncateFd 0 1, .openFile ['/', 'd', '/', 'b'] 0o102,
      .truncateFd 1 1, .close 0, .unlink ['/', 'a']]
    (fun s => s.nextFile = 2 ∧ s.nextDirectory = 2 ∧ s.freeFbhs.head? = some 2 ∧
      (s.fileBlockMetas 0).used = false)
    (freshDevice_fresh 8 fun _ => 0) steadyEnv_ok anyCall_sound (by decide +kernel)
  exact ⟨s, files, dirs, head, back, reach.freeListsSound⟩

end Run

end BlockFs.FileSystem
