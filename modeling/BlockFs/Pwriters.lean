import BlockFs.Effects
import BlockFs.Frames
import BlockFs.Lib.Interleaving

namespace BlockFs

/-- How far a `pwrite` has come: before it looks at the file size, before it truncates the file to its
own end, before it plans its blocks, and between two blocks. -/
inductive PwritePhase
  | entered
  | short
  | fits
  | moving (blocks : List BlockData) (ret : Int)
  | returned (ret : Int)

/-- One call of `OpenFile::pwrite` in progress. -/
structure Pwriter where
  fd : Nat
  file : FilePtr
  buffer : Nat → UInt8
  size : Nat
  offset : Nat
  phase : PwritePhase

namespace Pwriter

/-- The end of the range, a sum of 64 bits. -/
def reach (l : Pwriter) : Nat := (l.offset + l.size) % 2 ^ 64

def Covers (l : Pwriter) (p : Nat) : Prop := l.offset ≤ p ∧ p < l.offset + l.size

/-- One step of `OpenFile::pwrite`; none where the process stops. The truncation is one step under the
mutex of the file, and the write of a block one under the lock of the block. -/
def next [Crc32] (s : FileSystem) (l : Pwriter) (env : Env) : Option (FileSystem × Pwriter) :=
  match l.phase with
  | .entered =>
    if l.size = 0 then some (s, { l with phase := .returned 0 })
    else if (s.fileMeta l.file).size < l.reach then some (s, { l with phase := .short })
    else some (s, { l with phase := .fits })
  | .short =>
    match s.ftruncate env l.file l.reach with
    | .error _ => none
    | .ok (s, ret) =>
      if ret < 0 then some (s, { l with phase := .returned (-1) })
      else some (s, { l with phase := .fits })
  | .fits =>
    let s := s.stamped env l.file
    match s.getFileBlock l.file 0 with
    | none => none
    | some b =>
      match planTransfer s.superMeta (s.fileBlockMetas b) l.size l.offset with
      | .error _ => none
      | .ok blocks => some (s, { l with phase := .moving blocks 0 })
  | .moving [] ret =>
    match s.openFiles.lookup l.fd with
    | none => some (s, { l with phase := .returned ret })
    | some o => some (s.advance l.fd o ret, { l with phase := .returned ret })
  | .moving (block :: blocks) ret =>
    if kBlockLockNum ≤ block.blockId then none
    else
      match s.disk.pwriteCache l.buffer block.bufferOffset block.size block.devOffset with
      | (disk, blockWrite) =>
        if blockWrite ≤ 0 then some ({ s with disk := disk }, { l with phase := .moving [] ret })
        else some ({ s with disk := disk }, { l with phase := .moving blocks (ret + blockWrite) })
  | .returned _ => none

/-- The rest of a plan: blocks that hold the bytes of the range from `curr` on. -/
inductive Aimed (s : FileSystem) (f : FilePtr) (offset size : Nat) : Nat → List BlockData → Prop
  | done : Aimed s f offset size size []
  | more {curr block blocks} (start : block.bufferOffset = curr) (positive : 0 < block.size)
    (inside : curr + block.size ≤ size)
    (places : ∀ i < block.size, s.placeOf f (offset + (curr + i)) = block.devOffset + i)
    (rest : Aimed s f offset size (curr + block.size) blocks) :
    Aimed s f offset size curr (block :: blocks)

/-- What a `pwrite` on `f` relies on, where others write at the positions `foreign`. -/
def Sound (s : FileSystem) (f : FilePtr) (foreign : Nat → Prop) (l : Pwriter) : Prop :=
  match l.phase with
  | .entered => True
  | .short => 0 < l.size
  | .fits => 0 < l.size ∧ l.reach ≤ (s.fileMeta f).size
  | .moving blocks _ => l.offset + l.size ≤ (s.fileMeta f).size ∧
    ∃ curr, Aimed s f l.offset l.size curr blocks ∧
      ∀ i < curr, ¬foreign (l.offset + i) → s.byteOf f (l.offset + i) = l.buffer i
  | .returned ret => 0 ≤ ret → l.offset + l.size ≤ (s.fileMeta f).size ∧
    ∀ i < l.size, ¬foreign (l.offset + i) → s.byteOf f (l.offset + i) = l.buffer i

/-- The step does not cut the file: a truncation finds it no longer than the end of the range, and
an empty range does not lie behind the end of the file. -/
def Orderly (s : FileSystem) (l : Pwriter) : Prop :=
  match l.phase with
  | .entered => l.size = 0 → l.offset ≤ (s.fileMeta l.file).size
  | .short => (s.fileMeta l.file).size ≤ l.reach ∧ s.Narrow l.file l.reach
  | _ => True

end Pwriter

namespace FileSystem

/-- A step that leaves the bytes of `f` where they are and changes them at the positions `changed` at
most. -/
structure KeepsFile (s s' : FileSystem) (f : FilePtr) (changed : Nat → Prop) : Prop where
  size : (s.fileMeta f).size ≤ (s'.fileMeta f).size
  place : ∀ p < (s.fileMeta f).size, s'.placeOf f p = s.placeOf f p
  bytes : ∀ p < (s.fileMeta f).size, ¬changed p → s'.byteOf f p = s.byteOf f p

section Keeping
variable [Crc32] {s s' : FileSystem} {env : Env} {lost : Lost} {f : FilePtr} {n p : Nat} {r : Int}
  {changed foreign : Nat → Prop}

omit [Crc32] in
theorem Quiet.keepsFile (quiet : Quiet s s') : KeepsFile s s' f fun _ => False := by
  have same := quiet.resources.sameFile f
  have place (p : Nat) : s'.placeOf f p = s.placeOf f p := by
    rw [placeOf, placeOf, same.blockIds_eq, devOffset, devOffset, quiet.resources.layout.superMeta]
  refine ⟨same.size.ge, fun p _ => place p, fun p _ _ => ?_⟩
  rw [byteOf, byteOf, place, quiet.data]

/-- A truncation that does not shrink the file moves none of its bytes. -/
theorem Truncation.keepsFile (consistent : Consistent s lost) (bound : f < s.nextFile)
    (known : s.Accessible f) (grows : (s.fileMeta f).size ≤ n) (truncation : Truncation s env f n s' r) :
    KeepsFile s s' f fun _ => False := by
  have recut := truncation.recut consistent bound known
  have size : (s.fileMeta f).size ≤ (s'.fileMeta f).size := by
    rw [recut.size]
    split
    · exact grows
    · exact le_rfl
  refine ⟨size, fun p inside => ?_, fun p inside _ => recut.kept p inside (inside.trans_le size)⟩
  cases truncation with
  | grow _ extension =>
    obtain ⟨⟨added, ids⟩, superMeta, _, _⟩ := extension.continues consistent
    have entry := consistent.entry_lt bound inside
    rw [placeOf, placeOf, ← ids, List.getD_append _ _ _ _ entry, devOffset, devOffset, superMeta]
  | shrink shrinks _ _ => omega
  | keep _ => rfl

theorem Consistent.placeOf_lt (consistent : Consistent s lost) (bound : f < s.nextFile)
    (inside : p < (s.fileMeta f).size) : s.placeOf f p < s.disk.size := by
  have listed := consistent.blockIds_lt bound (consistent.entry_mem bound inside)
  have region := consistent.devOffset_le listed
  have short := Nat.mod_lt p kBlockSize_positive
  rw [placeOf, devOffset_add]
  omega

/-- The write of one block of a plan fills its bytes and leaves all others of the file. -/
theorem Consistent.writes_block (consistent : Consistent s lost) (bound : f < s.nextFile)
    {buffer : Nat → UInt8} {offset size curr : Nat} {block : BlockData}
    (inside : offset + size ≤ (s.fileMeta f).size) (start : block.bufferOffset = curr)
    (positive : 0 < block.size) (fits : curr + block.size ≤ size)
    (places : ∀ i < block.size, s.placeOf f (offset + (curr + i)) = block.devOffset + i) :
    s.disk.pwriteCache buffer block.bufferOffset block.size block.devOffset =
        ({ s.disk with data := block.onto buffer s.disk.data }, (block.size : Int)) ∧
      KeepsFile s (s.stored (block.onto buffer s.disk.data)) f
        (fun p => offset + curr ≤ p ∧ p < offset + curr + block.size) ∧
      ∀ i < block.size, (s.stored (block.onto buffer s.disk.data)).byteOf f (offset + (curr + i)) =
        buffer (curr + i) := by
  have extent : block.devOffset + block.size ≤ s.disk.size := by
    have last := places (block.size - 1) (by omega)
    have below := @Consistent.placeOf_lt _ s lost f (offset + (curr + (block.size - 1))) consistent bound
      (by omega)
    omega
  refine ⟨pwriteCache_ok buffer extent, ⟨le_rfl, fun _ _ => rfl, fun p short off => ?_⟩, fun i less => ?_⟩
  · change block.onto buffer s.disk.data (s.placeOf f p) = s.disk.data (s.placeOf f p)
    refine if_neg ?_
    rintro ⟨low, high⟩
    have met := places (s.placeOf f p - block.devOffset) (by omega)
    have same : s.placeOf f p =
        s.placeOf f (offset + (curr + (s.placeOf f p - block.devOffset))) := by omega
    obtain ⟨_, here⟩ := consistent.placeOf_inj bound short bound (by omega) same
    omega
  · change block.onto buffer s.disk.data (s.placeOf f (offset + (curr + i))) = buffer (curr + i)
    rw [places i less, BlockData.onto, if_pos (by omega), start]
    congr 1
    omega

/-- The plan of a transfer inside a file aims at the bytes of its range. -/
theorem Consistent.aimed (consistent : Consistent s lost) (bound : f < s.nextFile) {b : FileBlockPtr}
    {offset size curr : Nat} {blocks : List BlockData} (inside : offset + size ≤ (s.fileMeta f).size)
    (entries : (s.files f).itemMaps.entries = [⟨0, b⟩])
    (plan : Plan s.superMeta (s.fileBlockMetas b) offset size curr blocks) :
    Pwriter.Aimed s f offset size curr blocks := by
  have places {curr : Nat} {block : BlockData}
      (piece : Piece s.superMeta (s.fileBlockMetas b) offset curr block) (fits : curr + block.size ≤ size)
      (i : Nat) (less : i < block.size) :
      s.placeOf f (offset + (curr + i)) = block.devOffset + i := by
    rw [consistent.placeOf_eq bound (by omega) entries, piece.address less]
  induction plan with
  | @last curr block piece ends =>
    have ended : Pwriter.Aimed s f offset size (curr + block.size) [] := ends ▸ .done
    exact .more piece.bufferOffset piece.positive ends.le (places piece ends.le) ended
  | @more curr block blocks piece rest ih =>
    exact .more piece.bufferOffset piece.positive rest.lt.le (places piece rest.lt.le) ih

end Keeping

end FileSystem

namespace Pwriter
open FileSystem

section Steps
variable [Crc32] {s s' : FileSystem} {env : Env} {lost : Lost} {f : FilePtr} {l l' : Pwriter}
  {offset size curr : Nat} {blocks : List BlockData} {changed foreign : Nat → Prop}

omit [Crc32] in
theorem Aimed.le (aimed : Aimed s f offset size curr blocks) : curr ≤ size := by
  cases aimed with
  | done => exact le_rfl
  | more _ positive inside _ _ => omega

omit [Crc32] in
theorem Aimed.keeps (aimed : Aimed s f offset size curr blocks) (keeps : KeepsFile s s' f changed)
    (inside : offset + size ≤ (s.fileMeta f).size) : Aimed s' f offset size curr blocks := by
  induction aimed with
  | done => exact .done
  | @more curr block blocks start positive fits places rest ih =>
    refine .more start positive fits (fun i less => ?_) ih
    rw [keeps.place _ (by omega)]
    exact places i less

omit [Crc32] in
/-- What a `pwrite` relies on survives the steps of the others. -/
theorem Sound.keeps (sound : Sound s f foreign l) (keeps : KeepsFile s s' f changed)
    (apart : ∀ p, changed p → foreign p) : Sound s' f foreign l := by
  have size := keeps.size
  cases phase : l.phase with
  | entered => simp only [Sound, phase]
  | short =>
    simp only [Sound, phase] at sound ⊢
    exact sound
  | fits =>
    simp only [Sound, phase] at sound ⊢
    exact ⟨sound.1, sound.2.trans size⟩
  | moving blocks ret =>
    simp only [Sound, phase] at sound ⊢
    obtain ⟨inside, curr, aimed, put⟩ := sound
    refine ⟨inside.trans size, curr, aimed.keeps keeps inside, fun i less off => ?_⟩
    have within := aimed.le
    rw [keeps.bytes _ (by omega) fun change => off (apart _ change)]
    exact put i less off
  | returned ret =>
    simp only [Sound, phase] at sound ⊢
    intro success
    obtain ⟨inside, put⟩ := sound success
    refine ⟨inside.trans size, fun i less off => ?_⟩
    rw [keeps.bytes _ (by omega) fun change => off (apart _ change)]
    exact put i less off

/-- What one step of a `pwrite` does to the file system, and what the call relies on from then on. -/
structure Stepped (s s' : FileSystem) (f : FilePtr) (foreign : Nat → Prop) (l l' : Pwriter) : Prop where
  same : { l' with phase := l.phase } = l
  coherent : ∃ lost, Coherent s' lost
  opened : ∀ fd, s'.openedFile fd = s.openedFile fd
  keeps : KeepsFile s s' f l.Covers
  sound : Sound s' f foreign l'

/-- A step that moves no byte of the file. -/
theorem Stepped.of_quiet (coherent : Coherent s lost) (quiet : Quiet s s') (homes : s'.dirSide = s.dirSide)
    {phase : PwritePhase} (sound : Sound s f foreign { l with phase := phase }) :
    Stepped s s' f foreign l { l with phase := phase } where
  same := rfl
  coherent := ⟨lost, quiet.coherent coherent (coherent.housed.of_dirSide homes)⟩
  opened := quiet.opened
  keeps := ⟨quiet.keepsFile.size, quiet.keepsFile.place, fun p inside _ => quiet.keepsFile.bytes p inside id⟩
  sound := sound.keeps quiet.keepsFile fun _ => False.elim

theorem next_short (coherent : Coherent s lost) (ok : env.IoOk) (opened : s.openedFile l.fd = some l.file)
    (phase : l.phase = .short) (sound : Sound s l.file foreign l) (orderly : l.Orderly s)
    (taken : l.next s env = some (s', l')) : Stepped s s' l.file foreign l l' := by
  simp only [Sound, phase] at sound
  simp only [Orderly, phase] at orderly
  have known : s.Accessible l.file := .inl ⟨l.fd, opened⟩
  have registered := coherent.registered.opens l.fd l.file opened
  have bound := coherent.registered.bound registered
  obtain ⟨u, r, run, truncation⟩ := ftruncate_cases coherent.consistent ok bound orderly.2
  obtain ⟨lost', _, _, coherent'⟩ := truncation.coherent coherent registered
  have keeps := truncation.keepsFile coherent.consistent bound known orderly.1
  have size := (truncation.recut coherent.consistent bound known).size
  have step {phase : PwritePhase} (sound : Sound u l.file foreign { l with phase := phase }) :
      Stepped s u l.file foreign l { l with phase := phase } :=
    { same := rfl
      coherent := ⟨lost', coherent'⟩
      opened := truncation.openedFile coherent bound
      keeps := ⟨keeps.size, keeps.place, fun p inside _ => keeps.bytes p inside id⟩
      sound := sound }
  rw [next, phase] at taken
  dsimp only at taken
  rw [run] at taken
  dsimp only at taken
  split at taken
  · next failed =>
    obtain ⟨rfl, rfl⟩ := Prod.mk.inj (Option.some.inj taken)
    refine step ?_
    simp only [Sound]
    intro success
    exact absurd success (by decide)
  · next done =>
    obtain ⟨rfl, rfl⟩ := Prod.mk.inj (Option.some.inj taken)
    have zero : r = 0 := truncation.result.resolve_right fun minus => done (by omega)
    rw [if_pos zero] at size
    refine step ?_
    simp only [Sound]
    exact ⟨sound, size.ge⟩

theorem next_fits (coherent : Coherent s lost) (opened : s.openedFile l.fd = some l.file)
    (short : l.offset < 2 ^ 64) (phase : l.phase = .fits) (sound : Sound s l.file foreign l)
    (taken : l.next s env = some (s', l')) : Stepped s s' l.file foreign l l' := by
  simp only [Sound, phase] at sound
  obtain ⟨positive, reach⟩ := sound
  have bound := coherent.registered.bound (coherent.registered.opens l.fd l.file opened)
  obtain ⟨files, superMeta, slots, _, _, homes⟩ := stamped_frame s env l.file
  have quiet : Quiet s (s.stamped env l.file) := stamped_quiet l.file
  rw [next, phase] at taken
  dsimp only at taken
  rw [getFileBlock, files, superMeta, slots] at taken
  split at taken
  · simp at taken
  next b item =>
  split at taken
  · simp at taken
  next blocks planned =>
  obtain ⟨rfl, rfl⟩ := Prod.mk.inj (Option.some.inj taken)
  have range : l.offset + l.size < 2 ^ 64 := by
    by_contra wraps
    obtain ⟨fault, stops, _⟩ :=
      planTransfer_wrapped s.superMeta (s.fileBlockMetas b) short positive (Nat.not_lt.mp wraps)
    rw [stops] at planned
    simp at planned
  rw [Pwriter.reach, Nat.mod_eq_of_lt range] at reach
  obtain ⟨entries, backs⟩ := coherent.consistent.entries_of_item bound item
  obtain ⟨blocks', planned', plan⟩ := backs.plan s.superMeta positive reach
  obtain rfl : blocks = blocks' := Except.ok.inj (planned.symm.trans planned')
  refine .of_quiet coherent quiet homes ?_
  simp only [Sound]
  exact ⟨reach, 0, coherent.consistent.aimed bound reach entries plan, fun i less => absurd less (by omega)⟩

theorem next_moving (coherent : Coherent s lost) (opened : s.openedFile l.fd = some l.file) {ret : Int}
    (phase : l.phase = .moving blocks ret) (sound : Sound s l.file foreign l)
    (taken : l.next s env = some (s', l')) : Stepped s s' l.file foreign l l' := by
  simp only [Sound, phase] at sound
  obtain ⟨inside, curr, aimed, put⟩ := sound
  have bound := coherent.registered.bound (coherent.registered.opens l.fd l.file opened)
  rw [next, phase] at taken
  cases aimed with
  | done =>
    have finished : Sound s l.file foreign { l with phase := .returned ret } := by
      simp only [Sound]
      exact fun _ => ⟨inside, put⟩
    dsimp only at taken
    split at taken
    · obtain ⟨rfl, rfl⟩ := Prod.mk.inj (Option.some.inj taken)
      exact .of_quiet coherent (.refl s) rfl finished
    · next o there =>
      obtain ⟨rfl, rfl⟩ := Prod.mk.inj (Option.some.inj taken)
      have here : s.openedFile l.fd = some o.file := by rw [openedFile, there]; rfl
      exact .of_quiet coherent (reposition_quiet here _) rfl finished
  | @more _ block rest start positive fits places later =>
    obtain ⟨run, keeps, filled⟩ :=
      @Consistent.writes_block _ s lost l.file coherent.consistent bound l.buffer _ _ _ _ inside start
        positive fits places
    dsimp only at taken
    split at taken
    · simp at taken
    rw [run] at taken
    dsimp only at taken
    rw [if_neg (by omega)] at taken
    obtain ⟨rfl, rfl⟩ := Prod.mk.inj (Option.some.inj taken)
    refine ⟨rfl, ⟨lost, stored_coherent coherent _⟩, fun _ => rfl, ?_, ?_⟩
    · refine ⟨keeps.size, keeps.place, fun p short off => keeps.bytes p short fun here => off ?_⟩
      exact ⟨by omega, by omega⟩
    · simp only [Sound]
      refine ⟨inside.trans keeps.size, _, later.keeps keeps inside, fun i less off => ?_⟩
      by_cases before : i < curr
      · refine (keeps.bytes _ (by omega) fun here => ?_).trans (put i before off)
        omega
      · obtain ⟨j, rfl⟩ := Nat.exists_eq_add_of_le (Nat.not_lt.mp before)
        exact filled j (by omega)

/-- Every step of a `pwrite` that does not cut its file keeps what all writers rely on. -/
theorem next_stepped (coherent : Coherent s lost) (ok : env.IoOk)
    (opened : s.openedFile l.fd = some l.file) (short : l.offset < 2 ^ 64)
    (sound : Sound s l.file foreign l) (orderly : l.Orderly s) (taken : l.next s env = some (s', l')) :
    Stepped s s' l.file foreign l l' := by
  cases phase : l.phase with
  | entered =>
    simp only [Orderly, phase] at orderly
    rw [next, phase] at taken
    dsimp only at taken
    split at taken
    · next empty =>
      obtain ⟨rfl, rfl⟩ := Prod.mk.inj (Option.some.inj taken)
      refine .of_quiet coherent (.refl s) rfl ?_
      simp only [Sound]
      exact fun _ => ⟨by have behind := orderly empty; omega, fun i less => by omega⟩
    next some_ =>
    split at taken
    · obtain ⟨rfl, rfl⟩ := Prod.mk.inj (Option.some.inj taken)
      refine .of_quiet coherent (.refl s) rfl ?_
      simp only [Sound]
      omega
    · next fits =>
      obtain ⟨rfl, rfl⟩ := Prod.mk.inj (Option.some.inj taken)
      refine .of_quiet coherent (.refl s) rfl ?_
      simp only [Sound]
      exact ⟨Nat.pos_of_ne_zero some_, Nat.not_lt.mp fits⟩
  | short => exact next_short coherent ok opened phase sound orderly taken
  | fits => exact next_fits coherent opened short phase sound taken
  | moving blocks ret => exact next_moving coherent opened phase sound taken
  | returned ret =>
    rw [next, phase] at taken
    simp at taken

end Steps

section Alone
variable [Crc32] {s s' : FileSystem} {env : Env} {l : Pwriter} {o : OpenFile} {r : Int}

/-- The steps of one writer whom nobody disturbs. -/
def Alone (env : Env) (x y : FileSystem × Pwriter) : Prop := y ∈ next x.1 x.2 env

theorem alone_moving {blocks : List BlockData} {ret n : Int} {d : Disk}
    (moved : writeBlocks l.buffer blocks s.disk = .ok (d, n)) :
    Relation.ReflTransGen (Alone env) (s, { l with phase := .moving blocks ret })
      ({ s with disk := d }, { l with phase := .moving [] (ret + n) }) := by
  induction blocks generalizing s ret n with
  | nil =>
    obtain ⟨rfl, rfl⟩ := Prod.mk.inj (Except.ok.inj moved)
    rw [Int.add_zero]
  | cons block blocks ih =>
    rw [writeBlocks] at moved
    split at moved
    · simp at moved
    next lock =>
    let out := s.disk.pwriteCache l.buffer block.bufferOffset block.size block.devOffset
    have step : Alone env (s, { l with phase := .moving (block :: blocks) ret })
        (if out.2 ≤ 0 then ({ s with disk := out.1 }, { l with phase := .moving [] ret })
        else ({ s with disk := out.1 }, { l with phase := .moving blocks (ret + out.2) })) := by
      rw [Alone, next]
      dsimp only
      rw [if_neg lock]
      split <;> rfl
    dsimp only at moved
    split at moved
    · next stops =>
      obtain ⟨rfl, rfl⟩ := Prod.mk.inj (Except.ok.inj moved)
      rw [if_pos stops] at step
      rw [Int.add_zero]
      exact .single step
    · next goes =>
      rw [if_neg goes] at step
      obtain ⟨⟨e, m⟩, rest, done⟩ := Except.bind_eq_ok.mp moved
      obtain ⟨rfl, rfl⟩ := Prod.mk.inj (Except.ok.inj done)
      rw [← Int.add_assoc]
      exact .head step (ih rest)

/-- A writer whom nobody disturbs does what `OpenFile::pwrite` does. -/
theorem alone_pwrite (opened : s.openFiles.lookup l.fd = some o) (file : o.file = l.file)
    (result : s.pwrite env l.fd o l.buffer l.size l.offset = .ok (s', r)) :
    Relation.ReflTransGen (Alone env) (s, { l with phase := .entered })
      (s', { l with phase := .returned r }) := by
  have finish {t : FileSystem} (there : t.openFiles.lookup l.fd = some o)
      (writing : (t.stamped env o.file).writeData l.fd o l.buffer l.size l.offset = .ok (s', r)) :
      Relation.ReflTransGen (Alone env) (t, { l with phase := .fits })
        (s', { l with phase := .returned r }) := by
    rw [file] at writing
    obtain ⟨_, _, _, _, openFiles, _⟩ := stamped_frame t env l.file
    rw [← openFiles] at there
    rw [writeData, file] at writing
    split at writing
    · simp at writing
    next b item =>
    obtain ⟨blocks, planned, writing⟩ := Except.bind_eq_ok.mp writing
    obtain ⟨⟨d, n⟩, moved, done⟩ := Except.bind_eq_ok.mp writing
    obtain ⟨rfl, rfl⟩ := Prod.mk.inj (Except.ok.inj done)
    have plan : Alone env (t, { l with phase := .fits })
        (t.stamped env l.file, { l with phase := .moving blocks 0 }) := by
      rw [Alone, next]
      dsimp only
      rw [item]
      dsimp only
      rw [planned]
      rfl
    have last : Alone env ({ t.stamped env l.file with disk := d }, { l with phase := .moving [] (0 + n) })
        ({ t.stamped env l.file with disk := d }.advance l.fd o n, { l with phase := .returned n }) := by
      rw [Alone, next, Int.zero_add]
      dsimp only
      rw [there]
      rfl
    exact .head plan ((alone_moving moved).tail last)
  dsimp only [pwrite] at result
  rw [file] at result
  split at result
  · next empty =>
    obtain ⟨rfl, rfl⟩ := Prod.mk.inj (Except.ok.inj result)
    refine .single ?_
    rw [Alone, next]
    dsimp only
    rw [if_pos empty]
    rfl
  next some_ =>
  by_cases grows : (s.fileMeta l.file).size < (l.offset + l.size) % 2 ^ 64
  · have look : Alone env (s, { l with phase := .entered }) (s, { l with phase := .short }) := by
      simp only [Alone, next, Pwriter.reach, if_neg some_, grows, if_true, Option.mem_def]
    rw [if_pos grows] at result
    obtain ⟨⟨t, ret⟩, truncated, rest⟩ := Except.bind_eq_ok.mp result
    have there : t.openFiles.lookup l.fd = some o := by
      rw [show t.openFiles = s.openFiles from congrArg Outer.openFiles (ftruncate_outer truncated)]
      exact opened
    dsimp only at rest
    split at rest
    · next failed =>
      obtain ⟨rfl, rfl⟩ := Prod.mk.inj (Except.ok.inj rest)
      refine (Relation.ReflTransGen.single look).tail ?_
      rw [Alone, next]
      dsimp only [Pwriter.reach]
      rw [truncated]
      dsimp only
      rw [if_pos failed]
      rfl
    · next done =>
      have cut : Alone env (s, { l with phase := .short }) (t, { l with phase := .fits }) := by
        rw [Alone, next]
        dsimp only [Pwriter.reach]
        rw [truncated]
        dsimp only
        rw [if_neg done]
        rfl
      rw [← file] at rest
      exact .head look (.head cut (finish there rest))
  · have look : Alone env (s, { l with phase := .entered }) (s, { l with phase := .fits }) := by
      simp only [Alone, next, Pwriter.reach, if_neg some_, grows, if_false, Option.mem_def]
    rw [if_neg grows, Except.ok_bind] at result
    dsimp only at result
    rw [if_neg (by decide), ← file] at result
    exact .head look (finish opened result)

end Alone

end Pwriter

namespace Pwriters
open FileSystem Pwriter

variable {Tid : Type*}

abbrev Config (Tid : Type*) := Interleaving.Config Tid FileSystem Pwriter

/-- Another thread writes at position `p`. -/
def Foreign (c : Config Tid) (t : Tid) (p : Nat) : Prop := ∃ t', t' ≠ t ∧ (c.threads t').Covers p

/-- All threads are about to write to the file `f` of `initial` bytes. -/
structure Start [Crc32] (f : FilePtr) (initial : Nat) (c : Config Tid) : Prop where
  reach : Reachable NarrowCall c.shared
  initial : (c.shared.fileMeta f).size = initial
  entered : ∀ t, (c.threads t).phase = .entered
  file : ∀ t, (c.threads t).file = f
  opened : ∀ t, c.shared.openedFile (c.threads t).fd = some f
  offset : ∀ t, (c.threads t).offset < 2 ^ 64

/-- Every read of position `p` of `f` that returns gives `v`. -/
def ReadsBack (s : FileSystem) (f : FilePtr) (p : Nat) (v : UInt8) : Prop :=
  ∀ fd buffer len offset s' back r, s.openedFile fd = some f → len < 2 ^ 64 →
    s.preadFile fd buffer len offset = .ok (s', back, r) →
      ∀ i : Nat, (i : Int) < r → toU64 offset + i = p → back i = v

/-- Once all writers have returned success, the file has all of their ranges, and what one has written
and no other covers reads back. -/
def NoneLost (f : FilePtr) (initial : Nat) (c : Config Tid) : Prop :=
  (∀ t, ∃ ret, 0 ≤ ret ∧ (c.threads t).phase = .returned ret) →
    initial ≤ (c.shared.fileMeta f).size ∧ ∀ t,
      (c.threads t).offset + (c.threads t).size ≤ (c.shared.fileMeta f).size ∧
        ∀ i < (c.threads t).size, ¬Foreign c t ((c.threads t).offset + i) →
          ReadsBack c.shared f ((c.threads t).offset + i) ((c.threads t).buffer i)

/-- What holds between the steps of the writers. -/
structure Sharing [Crc32] (f : FilePtr) (initial : Nat) (c : Config Tid) : Prop where
  coherent : ∃ lost, Coherent c.shared lost
  initial : initial ≤ (c.shared.fileMeta f).size
  file : ∀ t, (c.threads t).file = f
  opened : ∀ t, c.shared.openedFile (c.threads t).fd = some f
  offset : ∀ t, (c.threads t).offset < 2 ^ 64
  sound : ∀ t, (c.threads t).Sound c.shared f (Foreign c t)

section Run
variable [Crc32] [DecidableEq Tid] {f : FilePtr} {initial : Nat} {c c' : Config Tid} {event : Tid × Env}

omit [DecidableEq Tid] in
theorem Start.sharing (start : Start f initial c) : Sharing f initial c where
  coherent := start.reach.coherent
  initial := start.initial.ge
  file := start.file
  opened := start.opened
  offset := start.offset
  sound t := by simp only [Sound, start.entered t]

/-- A step that cuts nothing keeps what the writers rely on. -/
theorem Sharing.step (sharing : Sharing f initial c) (ok : event.2.IoOk)
    (orderly : (c.threads event.1).Orderly c.shared) (step : Interleaving.Step next c event c') :
    Sharing f initial c' := by
  obtain ⟨t, env⟩ := event
  obtain ⟨s', l', taken, rfl⟩ := step
  obtain ⟨lost, coherent⟩ := sharing.coherent
  have file := sharing.file t
  have opened := sharing.opened t
  have sound := sharing.sound t
  rw [← file] at opened sound
  have stepped := next_stepped coherent ok opened (sharing.offset t) sound orderly taken
  have fd := congrArg Pwriter.fd stepped.same
  have file' := congrArg Pwriter.file stepped.same
  have offset := congrArg Pwriter.offset stepped.same
  have size := congrArg Pwriter.size stepped.same
  have arguments (u : Tid) : (Function.update c.threads t l' u).fd = (c.threads u).fd ∧
      (Function.update c.threads t l' u).file = (c.threads u).file ∧
      (Function.update c.threads t l' u).offset = (c.threads u).offset ∧
      (Function.update c.threads t l' u).size = (c.threads u).size := by
    by_cases here : u = t
    · subst here
      rw [Function.update_self]
      exact ⟨fd, file', offset, size⟩
    · rw [Function.update_of_ne here]
      exact ⟨rfl, rfl, rfl, rfl⟩
  have foreign (u : Tid) : Foreign ⟨s', Function.update c.threads t l'⟩ u = Foreign c u := by
    funext p
    simp only [Foreign, Pwriter.Covers, (arguments _).2.2.1, (arguments _).2.2.2]
  have keeps := stepped.keeps
  rw [file] at keeps
  refine ⟨stepped.coherent, sharing.initial.trans keeps.size, fun u => ?_, fun u => ?_, fun u => ?_,
    fun u => ?_⟩
  · exact (arguments u).2.1.trans (sharing.file u)
  · dsimp only
    rw [(arguments u).1, stepped.opened]
    exact sharing.opened u
  · dsimp only
    rw [(arguments u).2.2.1]
    exact sharing.offset u
  · rw [foreign]
    dsimp only
    by_cases here : u = t
    · subst here
      rw [Function.update_self, ← file]
      exact stepped.sound
    · rw [Function.update_of_ne here]
      exact (sharing.sound u).keeps keeps fun p covered => ⟨t, Ne.symm here, covered⟩

/-- In every interleaving in which no truncation cuts the file, no write is lost. -/
theorem noneLost (reach : Interleaving.Reached next (Start f initial)
    (fun c event => event.2.IoOk ∧ (c.threads event.1).Orderly c.shared) c) : NoneLost f initial c := by
  have sharing : Sharing f initial c := by
    refine reach.invariant (Sharing f initial) (fun c start => start.sharing) ?_
    exact fun c event c' sharing guard step => sharing.step guard.1 guard.2 step
  intro success
  obtain ⟨lost, coherent⟩ := sharing.coherent
  refine ⟨sharing.initial, fun t => ?_⟩
  obtain ⟨ret, done, phase⟩ := success t
  have sound := sharing.sound t
  simp only [Sound, phase] at sound
  obtain ⟨inside, put⟩ := sound done
  refine ⟨inside, fun i less alone fd buffer len offset s' back r opened length result j short same => ?_⟩
  obtain ⟨rfl, fetched⟩ := coherent.preadFile_bytes opened length result
  rw [fetched j (by omega), same]
  exact put i less alone

end Run

section Concrete
variable [Crc32] {f : FilePtr} {initial : Nat} {c : Config Bool}

instance (s : FileSystem) : (l : Pwriter) → Decidable (l.Orderly s)
  | ⟨_, _, _, _, _, .entered⟩ => inferInstanceAs (Decidable (_ → _))
  | ⟨_, _, _, _, _, .short⟩ => inferInstanceAs (Decidable (_ ∧ _))
  | ⟨_, _, _, _, _, .fits⟩ => inferInstanceAs (Decidable True)
  | ⟨_, _, _, _, _, .moving _ _⟩ => inferInstanceAs (Decidable True)
  | ⟨_, _, _, _, _, .returned _⟩ => inferInstanceAs (Decidable True)

/-- The step of one of two threads, where it passes the check. -/
def turn (check : FileSystem → Pwriter → Bool) (c : Config Bool) (event : Bool × Env) :
    Except Unit (Config Bool) :=
  if check c.shared (c.threads event.1) then
    match Pwriter.next c.shared (c.threads event.1) event.2 with
    | some (s, l) => .ok ⟨s, Function.update c.threads event.1 l⟩
    | none => .error ()
  else .error ()

/-- The turns of two threads, followed to their end. -/
theorem exists_of_turns {guard : FileSystem → Pwriter → Prop} {check : FileSystem → Pwriter → Bool}
    {env : Env} (start : Start f initial c) (ok : env.IoOk) (sound : ∀ s l, check s l = true → guard s l)
    (turns : List Bool) (goal : Config Bool → Prop) [DecidablePred goal]
    (found : (Transition.runList (turn check) (turns.map (·, env)) c).toOption.any
      (fun c => goal c) = true) :
    ∃ c, Interleaving.Reached next (Start f initial)
      (fun c event => event.2.IoOk ∧ guard c.shared (c.threads event.1)) c ∧ goal c := by
  refine Transition.Reaches.exists_of_runList (.start start) _ (fun event member c c' taken => ?_) goal found
  obtain ⟨t, _, rfl⟩ := List.mem_map.mp member
  unfold turn at taken
  split at taken
  · next passed =>
    split at taken
    · next s l made =>
      obtain rfl := Except.ok.inj taken
      exact ⟨⟨ok, sound _ _ passed⟩, s, l, made, rfl⟩
    · simp at taken
  · simp at taken

/-- No condition on the steps. -/
def anyStep (_ : FileSystem) (_ : Pwriter) : Prop := True

/-- Two writers, of the first byte of a file and of its second one. -/
def twoWriters (s : FileSystem) : Config Bool where
  shared := s
  threads second :=
    { fd := 0, file := 0, buffer := fun _ => 7, size := 1, offset := if second then 1 else 0, phase := .entered }

/-- Decides whether both writers have returned success. -/
def bothReturned (c : Config Bool) : Bool :=
  [false, true].all fun t =>
    match (c.threads t).phase with
    | .returned ret => decide (0 ≤ ret)
    | _ => false

omit [Crc32] in
theorem bothReturned_sound (passed : bothReturned c = true) (t : Bool) :
    ∃ ret, 0 ≤ ret ∧ (c.threads t).phase = .returned ret := by
  have each : (match (c.threads t).phase with
      | .returned ret => decide (0 ≤ ret)
      | _ => false) = true := by
    cases t <;> simp [bothReturned] at passed
    · exact passed.1
    · exact passed.2
  split at each
  · next ret phase => exact ⟨ret, of_decide_eq_true each, phase⟩
  · simp at each

omit [Crc32] in
/-- Two writers behind the creation of an empty file, and their turns followed to the end. -/
theorem exists_twoWriters {guard : FileSystem → Pwriter → Prop} (check : FileSystem → Pwriter → Bool)
    (sound : ∀ s l, check s l = true → guard s l) (turns : List Bool) (goal : Config Bool → Prop)
    [DecidablePred goal]
    (found : ((@runOps zeroCrc steadyEnv isNarrowCall [.openFile ['/', 'a'] 0o102]
      (freshDevice 8 fun _ => 0)).any fun s =>
        s.openedFile 0 = some 0 && (s.fileMeta 0).size = 0 &&
          (Transition.runList (@turn zeroCrc check) (turns.map (·, steadyEnv)) (twoWriters s)).toOption.any
            fun c => goal c) = true) :
    ∃ c, Interleaving.Reached (@next zeroCrc) (@Start Bool zeroCrc 0 0)
      (fun c event => event.2.IoOk ∧ guard c.shared (c.threads event.1)) c ∧ goal c := by
  let _ := zeroCrc
  obtain ⟨s, reach, passed⟩ := Reachable.exists_run [.openFile ['/', 'a'] 0o102]
    (fun s => (s.openedFile 0 = some 0 && (s.fileMeta 0).size = 0 &&
      (Transition.runList (turn check) (turns.map (·, steadyEnv)) (twoWriters s)).toOption.any
        fun c => goal c) = true)
    (freshDevice_fresh 8 fun _ => 0) steadyEnv_ok isNarrowCall_sound (by simpa using found)
  simp only [Bool.and_eq_true, decide_eq_true_eq] at passed
  obtain ⟨⟨opened, size⟩, run⟩ := passed
  have start : Start 0 0 (twoWriters s) :=
    { reach := reach
      initial := size
      entered := fun _ => rfl
      file := fun _ => rfl
      opened := fun _ => opened
      offset := fun t => by cases t <;> simp [twoWriters] }
  exact exists_of_turns start steadyEnv_ok sound turns goal run

omit [Crc32] in
/-- The writer of the first byte, and then that of the second. -/
theorem noneLost_both : ∃ c : Config Bool, (c.shared.fileMeta 0).size = 2 ∧ bothReturned c = true ∧
    NoneLost 0 0 c := by
  let _ := zeroCrc
  obtain ⟨c, reach, size, returned⟩ := exists_twoWriters (fun s l => decide (l.Orderly s))
    (fun s l => of_decide_eq_true) (List.replicate 5 false ++ List.replicate 5 true)
    (fun c => (c.shared.fileMeta 0).size = 2 ∧ bothReturned c = true) (by decide +kernel)
  exact ⟨c, size, returned, noneLost reach⟩

omit [Crc32] in
/-- Both find the file too short; the second grows it to two bytes and writes, and then the first cuts it
to one. -/
theorem not_noneLost : ∃ c, Interleaving.Reached (@next zeroCrc) (@Start Bool zeroCrc 0 0)
    (fun c event => event.2.IoOk ∧ anyStep c.shared (c.threads event.1)) c ∧ bothReturned c = true ∧ (c.shared.fileMeta 0).size = 1 ∧
      ¬NoneLost 0 0 c := by
  obtain ⟨c, reach, size, returned⟩ := @exists_twoWriters anyStep (fun _ _ => true)
    (fun _ _ _ => trivial) ([false] ++ List.replicate 5 true ++ List.replicate 4 false)
    (fun c => (c.shared.fileMeta 0).size = 1 ∧ bothReturned c = true ∧ (c.threads true).offset = 1 ∧
      (c.threads true).size = 1) inferInstance (by decide +kernel)
  refine ⟨c, reach, returned.1, size, fun noneLost => ?_⟩
  have inside := ((noneLost (bothReturned_sound returned.1)).2 true).1
  omega

end Concrete

end Pwriters

end BlockFs
