import BlockFs.Pins
import BlockFs.Stat

namespace BlockFs.FileSystem

/-- A file that had the slot `x` and that no name and no descriptor leads to any more. -/
structure Departed (s : FileSystem) (f : FilePtr) (x : Nat) : Prop where
  made : f < s.nextFile
  slot : (s.files f).metaSlot = x
  gone : ¬s.Accessible f

section Departing
variable {s s' t : FileSystem} {f g : FilePtr} {x : Nat}

/-- A file stays departed when it keeps its slot and gets no new name or descriptor. -/
theorem Departed.stays (departed : Departed s f x) (nextFile : s.nextFile ≤ s'.nextFile)
    (slot : (s'.files f).metaSlot = (s.files f).metaSlot)
    (opens : ∀ fd, s'.openedFile fd = some f → s.Accessible f)
    (names : ∀ K, s'.createdFiles.lookup K = some f → s.createdFiles.lookup K = some f) :
    Departed s' f x := by
  refine ⟨departed.made.trans_le nextFile, slot.trans departed.slot, fun known => departed.gone ?_⟩
  rcases known with ⟨fd, opened⟩ | ⟨K, entry⟩
  · exact opens fd opened
  · exact .inr ⟨K, names K entry⟩

theorem Departed.registry (departed : Departed s f x) (same : s'.registry = s.registry)
    (openFiles : s'.openFiles = s.openFiles) : Departed s' f x := by
  refine departed.stays (congrArg Registry.nextFile same).ge (metaSlot_of_registry same f)
    (fun fd opened => ?_) fun K entry => ?_
  · rw [openedFile, openFiles] at opened
    exact .inl ⟨fd, opened⟩
  · rwa [show s'.createdFiles = s.createdFiles from congrArg Registry.createdFiles same] at entry

theorem removeFileFromoDirectory_names (s : FileSystem) (dir : DirectoryPtr) (g : FilePtr) {K : Nat × Name}
    (entry : (s.removeFileFromoDirectory dir g).1.createdFiles.lookup K = some f) :
    s.createdFiles.lookup K = some f := by
  obtain ⟨done, ⟨result, _⟩ | result⟩ := removeFileFromoDirectory_cases s dir g
  · rw [result] at entry
    exact entry
  · rw [result] at entry
    exact (lookup_of_erase entry).1

theorem removeFileFromoDirectory_files (s : FileSystem) (dir : DirectoryPtr) (g : FilePtr) :
    (s.removeFileFromoDirectory dir g).1.files = s.files ∧
      (s.removeFileFromoDirectory dir g).1.nextFile = s.nextFile ∧
      (s.removeFileFromoDirectory dir g).1.openFiles = s.openFiles := by
  obtain ⟨done, ⟨result, _⟩ | result⟩ := removeFileFromoDirectory_cases s dir g <;> rw [result] <;>
    exact ⟨rfl, rfl, rfl⟩

/-- The removal of a file from its directory. -/
theorem Departed.removes (departed : Departed s f x) (dir : DirectoryPtr) (g : FilePtr) :
    Departed (s.removeFileFromoDirectory dir g).1 f x := by
  obtain ⟨files, nextFile, openFiles⟩ := removeFileFromoDirectory_files s dir g
  refine departed.stays nextFile.ge (by rw [files]) (fun fd opened => ?_)
    fun K => removeFileFromoDirectory_names s dir g
  rw [openedFile, openFiles] at opened
  exact .inl ⟨fd, opened⟩

/-- The switch of another file to a new slot. -/
theorem Departed.switches (departed : Departed s f x) (other : f ≠ g) (dir : DirectoryPtr) (w : Nat) :
    Departed (s.shrinkSwitch dir g w) f x := by
  have left := departed.removes dir g
  unfold shrinkSwitch
  generalize (s.removeFileFromoDirectory dir g).1 = u at left
  have names (v : FileSystem) : (v.addFileToDirectory dir g).createdFiles =
      v.createdFiles.insert ((v.addChildFile dir g).1.key g) g := by
    unfold addFileToDirectory addChildFile
    split <;> rfl
  have rest (v : FileSystem) : (v.addFileToDirectory dir g).files = v.files ∧
      (v.addFileToDirectory dir g).nextFile = v.nextFile ∧
      (v.addFileToDirectory dir g).openFiles = v.openFiles := by
    unfold addFileToDirectory addChildFile
    split <;> exact ⟨rfl, rfl, rfl⟩
  obtain ⟨files, nextFile, openFiles⟩ := rest (u.modifyFile g fun o => { o with metaSlot := w })
  refine left.stays nextFile.ge ?_ (fun fd opened => ?_) fun K entry => ?_
  · rw [files]
    exact congrArg File.metaSlot (Function.update_of_ne other _ _)
  · rw [openedFile, openFiles] at opened
    exact .inl ⟨fd, opened⟩
  · rw [names] at entry
    rcases lookup_of_insert entry with ⟨_, same⟩ | ⟨_, before⟩
    · exact absurd same.symm (Ne.symm other)
    · exact before

variable [Crc32] {env : Env} {r : Int}

theorem Departed.ftruncate (departed : Departed s f x) (other : f ≠ g) {n : Nat}
    (result : s.ftruncate env g n = .ok (s', r)) : Departed s' f x := by
  have opens : s'.openFiles = s.openFiles := congrArg Outer.openFiles (ftruncate_outer result)
  unfold FileSystem.ftruncate at result
  split at result
  · exact departed.registry (extendFile_registry result) opens
  · split at result
    swap
    · obtain ⟨rfl, _⟩ := Prod.mk.inj (Except.ok.inj result)
      exact departed
    rcases shrinkFile_registry result with ⟨_, same⟩ | ⟨w, _, _, _, ⟨_, same⟩ | ⟨t, dir, before, outer, _, same⟩⟩
    · exact departed.registry same opens
    · have child : Departed (s.childSlot g w) f x := ⟨departed.made, departed.slot, departed.gone⟩
      exact child.registry same opens
    · have child : Departed (s.childSlot g w) f x := ⟨departed.made, departed.slot, departed.gone⟩
      have openFiles : t.openFiles = s.openFiles := congrArg Outer.openFiles outer
      refine ((child.registry before openFiles).switches other dir w).registry same ?_
      have switched : (t.shrinkSwitch dir g w).openFiles = t.openFiles :=
        congrArg Outer.openFiles (shrinkSwitch_outer dir w)
      rw [opens, switched, openFiles]

/-- A departed file stays departed, whatever a turn does. -/
theorem Departed.turn (departed : Departed s f x) (filed : Filed s) (settled : Settled s)
    (sheltered : Sheltered s) (ok : env.IoOk) (turn : Turn env s s') : Departed s' f x := by
  have aside (same : s'.fileSide = s.fileSide) : Departed s' f x := by
    refine departed.stays (congrArg FileSide.nextFile same).ge ?_ (fun fd opened => ?_) fun K entry => ?_
    · rw [show s'.files = s.files from congrArg FileSide.files same]
    · rw [openedFile, show s'.openFiles = s.openFiles from congrArg FileSide.openFiles same] at opened
      exact .inl ⟨fd, opened⟩
    · rwa [show s'.createdFiles = s.createdFiles from congrArg FileSide.createdFiles same] at entry
  cases turn with
  | surface same opens =>
    have registry := registry_of_beneath same
    refine departed.stays (congrArg Registry.nextFile registry).ge (metaSlot_of_registry registry f)
      (fun fd opened => opens fd f opened) fun K entry => ?_
    rwa [show s'.createdFiles = s.createdFiles from congrArg Registry.createdFiles registry] at entry
  | created path tmpfile =>
    have clean : CleanFhs s := by
      obtain ⟨_, _, _, stocked⟩ := settled
      exact ⟨stocked.slots, stocked.cleanFhs⟩
    rcases createFile_cases clean ok path tmpfile with ⟨u, refused, same⟩ | ⟨u, y, rest, m, done, created, _⟩
    · rw [refused] at aside ⊢
      exact aside same.fileSide
    · rw [done]
      refine departed.stays (by rw [created.nextFile]; exact Nat.le_succ _) ?_ (fun fd opened => ?_)
        fun K entry => ?_
      · rw [created.files, Function.update_of_ne departed.made.ne]
      · rw [openedFile, created.openFiles] at opened
        exact .inl ⟨fd, opened⟩
      · rw [created.createdFiles] at entry
        rcases lookup_of_insert entry with ⟨_, same⟩ | ⟨_, before⟩
        · exact absurd same departed.made.ne
        · exact before
  | truncated known result =>
    exact departed.ftruncate (fun same => departed.gone (same ▸ known)) result
  | stamped => exact departed.registry (updateTimeStamp_registry _) rfl
  | @discarded fd g opened =>
    have openFiles := congrArg Outer.openFiles (@unlinkFileNolock_outer _ s env (s.fileMeta g).fh)
    rcases @unlinkFileNolock_registry _ s env (s.fileMeta g).fh with
      same | ⟨t, h, dir, same, outer, _, _, gone⟩
    · exact departed.registry same openFiles
    · have before := departed.registry same (congrArg Outer.openFiles outer)
      refine (before.removes dir h).registry gone (openFiles.trans ?_)
      rw [(removeFileFromoDirectory_files t dir h).2.2]
      exact (congrArg Outer.openFiles outer).symm
  | unlinked path =>
    have openFiles := congrArg Outer.openFiles (@unlink_outer _ s env path)
    rcases @unlink_registry _ s env path with same | ⟨t, h, dir, _, _, same, outer, _, gone⟩
    · exact departed.registry same openFiles
    · have before := departed.registry same (congrArg Outer.openFiles outer)
      refine (before.removes dir h).registry gone (openFiles.trans ?_)
      rw [(removeFileFromoDirectory_files t dir h).2.2]
      exact (congrArg Outer.openFiles outer).symm
  | @renamed path g found target =>
    rcases filed.fileRename_cases sheltered.housed ok found target with
      ⟨e, _, refused⟩ | ⟨dir, u, m, _, done, _, renamed⟩
    · rw [refused]
      exact departed.registry rfl rfl
    · obtain ⟨_, _, _, entry⟩ := getCreatedFile_ok found
      have other : f ≠ g := fun same => departed.gone (.inr ⟨_, same ▸ entry⟩)
      rw [done]
      refine departed.stays renamed.resources.nextFile.ge (by rw [renamed.files]) (fun fd opened => ?_)
        fun K entry => ?_
      · rw [openedFile, show u.openFiles = s.openFiles from congrArg FileSide.openFiles renamed.rest]
          at opened
        exact .inl ⟨fd, opened⟩
      · rw [renamed.createdFiles] at entry
        rcases lookup_of_insert entry with ⟨_, same⟩ | ⟨_, before⟩
        · exact absurd same other
        · exact (lookup_of_erase before).1
  | madeDirectory result => exact aside (createDirectory_fileSide s env result)
  | droppedDirectory path => exact aside (deleteDirectory_fileSide s env path)
  | movedDirectory source target => exact aside (renameDirectory_fileSide s env source target)
  | readDirectory result => exact aside (readDirectory_fileSide s env result)

end Departing

end BlockFs.FileSystem
