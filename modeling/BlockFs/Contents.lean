import BlockFs.Attributes
import BlockFs.Cutting
import BlockFs.Offsets
import Mathlib.Data.List.GetD

namespace BlockFs.FileSystem

/-- The device address of byte `p` of a file. -/
def placeOf (s : FileSystem) (f : FilePtr) (p : Nat) : Nat :=
  s.devOffset ((s.blockIds f).getD (p / kBlockSize) 0) (p % kBlockSize)

/-- Byte `p` of a file, as the device holds it. -/
def byteOf (s : FileSystem) (f : FilePtr) (p : Nat) : UInt8 := s.disk.data (s.placeOf f p)

/-- Whoever reaches a file that was there before finds the bytes it had. -/
structure Carries (s s' : FileSystem) : Prop where
  nextFile : s.nextFile ≤ s'.nextFile
  accessible : ∀ f < s.nextFile, s'.Accessible f → s.Accessible f
  size : ∀ f < s.nextFile, s'.Accessible f → (s'.fileMeta f).size = (s.fileMeta f).size
  bytes : ∀ f < s.nextFile, s'.Accessible f → ∀ p < (s.fileMeta f).size, s'.byteOf f p = s.byteOf f p
  made : ∀ f, s.nextFile ≤ f → f < s'.nextFile → s'.Accessible f → (s'.fileMeta f).size = 0

/-- The byte that comes to position `p` of `f` where the file grows to `n` bytes: what the device holds
there, in the blocks of the file or in those the pool gives. -/
def gapByte (s : FileSystem) (env : Env) (f : FilePtr) (n p : Nat) : UInt8 :=
  s.disk.data (s.devOffset ((s.blockIds f ++ s.takenIds env (blocksNeeded (s.fileMeta f).size n)).getD
    (p / kBlockSize) 0) (p % kBlockSize))

/-- What a truncation of `f` to `n` bytes leaves of all files: the others have what they had, and `f`
has the bytes in front of the cut, or behind its old end what the device held. -/
structure Recut (s s' : FileSystem) (env : Env) (f : FilePtr) (n : Nat) (r : Int) : Prop where
  superMeta : s'.superMeta = s.superMeta
  nextFile : s'.nextFile = s.nextFile
  accessible : ∀ g, s'.Accessible g → s.Accessible g
  others : ∀ g < s.nextFile, g ≠ f → (s'.fileMeta g).size = (s.fileMeta g).size ∧
    ∀ p < (s.fileMeta g).size, s'.byteOf g p = s.byteOf g p
  size : (s'.fileMeta f).size = if r = 0 then n else (s.fileMeta f).size
  kept : ∀ p < (s.fileMeta f).size, p < (s'.fileMeta f).size → s'.byteOf f p = s.byteOf f p
  gap : ∀ p, (s.fileMeta f).size ≤ p → p < (s'.fileMeta f).size → s'.byteOf f p = s.gapByte env f n p

/-- What a write of `len` bytes at `offset` of `f` leaves of all files. -/
structure Overwritten (s s' : FileSystem) (f : FilePtr) (offset len : Nat) (buffer : Nat → UInt8) :
    Prop where
  superMeta : s'.superMeta = s.superMeta
  nextFile : s'.nextFile = s.nextFile
  accessible : ∀ g, s'.Accessible g ↔ s.Accessible g
  size : ∀ g, (s'.fileMeta g).size = (s.fileMeta g).size
  put : ∀ p, offset ≤ p → p < offset + len → s'.byteOf f p = buffer (p - offset)
  rest : ∀ g < s.nextFile, ∀ p < (s.fileMeta g).size, ¬(g = f ∧ offset ≤ p ∧ p < offset + len) →
    s'.byteOf g p = s.byteOf g p

section Places
variable [Crc32] {s s' : FileSystem} {lost : Lost} {f g : FilePtr} {p q : Nat}

/-- Every byte of a file lies in a block that the file lists. -/
theorem Consistent.entry_lt (consistent : Consistent s lost) (bound : f < s.nextFile)
    (inside : p < (s.fileMeta f).size) : p / kBlockSize < (s.blockIds f).length := by
  have enough := (consistent.blockIds_length bound).1
  refine lt_of_lt_of_le ?_ enough
  rw [blockNum_eq, Nat.div_lt_iff_lt_mul kBlockSize_positive, Nat.add_mul]
  have whole := Nat.div_add_mod (s.fileMeta f).size kBlockSize
  rw [Nat.mul_comm] at whole
  have short := Nat.mod_lt (s.fileMeta f).size kBlockSize_positive
  split
  · omega
  · omega

theorem Consistent.entry_mem (consistent : Consistent s lost) (bound : f < s.nextFile)
    (inside : p < (s.fileMeta f).size) :
    (s.blockIds f).getD (p / kBlockSize) 0 ∈ s.blockIds f := by
  have entry := consistent.entry_lt bound inside
  rw [List.getD_eq_getElem _ _ entry]
  exact List.getElem_mem entry

/-- A byte lies outside of every block that its file does not list. -/
theorem Consistent.placeOf_off (consistent : Consistent s lost) (bound : f < s.nextFile)
    (inside : p < (s.fileMeta f).size) {id len : Nat} (foreign : id ∉ s.blockIds f)
    (short : len ≤ kBlockSize) :
    s.placeOf f p < s.devOffset id 0 ∨ s.devOffset id 0 + len ≤ s.placeOf f p := by
  refine consistent.devOffset_apart ?_ (Nat.mod_lt p kBlockSize_positive) short
  rintro rfl
  exact foreign (consistent.entry_mem bound inside)

theorem Consistent.devOffset_inj (consistent : Consistent s lost) {id id' i j : Nat}
    (less : i < kBlockSize) (less' : j < kBlockSize) (same : s.devOffset id i = s.devOffset id' j) :
    id = id' ∧ i = j := by
  by_cases distinct : id = id'
  · subst distinct
    rw [devOffset_add, devOffset_add s id j] at same
    exact ⟨rfl, by omega⟩
  · rcases consistent.devOffset_apart distinct less (le_refl kBlockSize) with before | behind
    · rw [devOffset_add s id' j] at same
      omega
    · rw [devOffset_add s id' j] at same
      omega

/-- No two bytes of files share a place. -/
theorem Consistent.placeOf_inj (consistent : Consistent s lost) (bound : f < s.nextFile)
    (inside : p < (s.fileMeta f).size) (bound' : g < s.nextFile) (inside' : q < (s.fileMeta g).size)
    (same : s.placeOf f p = s.placeOf g q) : f = g ∧ p = q := by
  obtain ⟨id, rest⟩ := consistent.devOffset_inj (Nat.mod_lt p kBlockSize_positive)
    (Nat.mod_lt q kBlockSize_positive) same
  have here := consistent.entry_mem bound inside
  have there := consistent.entry_mem bound' inside'
  have owner : f = g := consistent.blockIds_unique bound bound' here (id ▸ there)
  subst owner
  have entry := consistent.entry_lt bound inside
  have entry' := consistent.entry_lt bound inside'
  rw [List.getD_eq_getElem _ _ entry, List.getD_eq_getElem _ _ entry'] at id
  have index := (consistent.blockIds_nodup bound).getElem_inj_iff.mp id
  have whole := Nat.div_add_mod p kBlockSize
  have whole' := Nat.div_add_mod q kBlockSize
  rw [index] at whole
  exact ⟨rfl, by omega⟩

/-- The address the transfer loops compute for a byte of a backed file. -/
theorem Consistent.placeOf_eq (consistent : Consistent s lost) (bound : f < s.nextFile)
    (inside : p < (s.fileMeta f).size) {b : FileBlockPtr}
    (entries : (s.files f).itemMaps.entries = [⟨0, b⟩]) :
    s.placeOf f p = byteAddress s.superMeta (s.fileBlockMetas b) p := by
  have attached_ : s.attached f = [b] := by simp [attached, entries]
  have entry := consistent.entry_lt bound inside
  have ids := blockIds_single attached_
  have used : p / kBlockSize < (s.fileBlockMetas b).usedBlockNum := by
    rwa [ids, FileBlockMeta.ids_length] at entry
  have listed : (s.blockIds f).getD (p / kBlockSize) 0 =
      (s.fileBlockMetas b).blockId (p / kBlockSize) := by
    rw [List.getD_eq_getElem?_getD, ids, FileBlockMeta.ids_getElem? used, Option.getD_some]
  rw [placeOf, listed, devOffset, byteAddress]

omit [Crc32] in
/-- A file keeps a byte where its list of blocks keeps the entry and the device the byte. -/
theorem byteOf_congr (superMeta : s'.superMeta = s.superMeta)
    (entry : (s'.blockIds f).getD (p / kBlockSize) 0 = (s.blockIds f).getD (p / kBlockSize) 0)
    (data : s'.disk.data (s.placeOf f p) = s.disk.data (s.placeOf f p)) :
    s'.byteOf f p = s.byteOf f p := by
  have place : s'.placeOf f p = s.placeOf f p := by
    rw [placeOf, placeOf, entry, devOffset, devOffset, superMeta]
  rw [byteOf, byteOf, place, data]

omit [Crc32] in
theorem SameFile.byteOf (same : SameFile s s' f) (superMeta : s'.superMeta = s.superMeta)
    (data : s'.disk.data (s.placeOf f p) = s.disk.data (s.placeOf f p)) :
    s'.byteOf f p = s.byteOf f p :=
  byteOf_congr superMeta (by rw [same.blockIds_eq]) data

end Places

section Changes
variable [Crc32] {s s' t : FileSystem} {lost : Lost} {f : FilePtr} {collides : Prop}

omit [Crc32] in
theorem Carries.refl (s : FileSystem) : Carries s s where
  nextFile := le_rfl
  accessible _ _ reached := reached
  size _ _ _ := rfl
  bytes _ _ _ _ _ := rfl
  made _ low high _ := absurd high (Nat.not_lt.mpr low)

omit [Crc32] in
theorem Carries.trans (first : Carries s t) (second : Carries t s') : Carries s s' where
  nextFile := first.nextFile.trans second.nextFile
  accessible f bound reached :=
    first.accessible f bound (second.accessible f (bound.trans_le first.nextFile) reached)
  size f bound reached := by
    have below := bound.trans_le first.nextFile
    rw [second.size f below reached, first.size f bound (second.accessible f below reached)]
  bytes f bound reached p inside := by
    have below := bound.trans_le first.nextFile
    have before := second.accessible f below reached
    rw [second.bytes f below reached p (by rwa [first.size f bound before]),
      first.bytes f bound before p inside]
  made f low high reached := by
    by_cases between : f < t.nextFile
    · rw [second.size f between reached]
      exact first.made f low between (second.accessible f between reached)
    · exact second.made f (by omega) high reached

omit [Crc32] in
theorem Carries.of_sameFile (nextFile : s.nextFile ≤ s'.nextFile)
    (accessible : ∀ f < s.nextFile, s'.Accessible f → s.Accessible f)
    (same : ∀ f < s.nextFile, s'.Accessible f → SameFile s s' f)
    (superMeta : s'.superMeta = s.superMeta) (data : s'.disk.data = s.disk.data)
    (made : ∀ f, s.nextFile ≤ f → f < s'.nextFile → (s'.fileMeta f).size = 0) : Carries s s' where
  nextFile := nextFile
  accessible := accessible
  size f bound reached := (same f bound reached).size
  bytes f bound reached p _ := (same f bound reached).byteOf superMeta (by rw [data])
  made f low high _ := made f low high

/-- No change touches the slots of a file that stays within reach. -/
theorem Change.sameFile (coherent : Coherent s lost) (change : Change collides s s')
    (below : f < s.nextFile) (reached : s'.Accessible f) : SameFile s s' f := by
  have consistent := coherent.consistent
  have registered := coherent.registered
  cases change with
  | quiet quiet _ => exact quiet.resources.sameFile f
  | created created _ => exact created.sameFile consistent below
  | @removed dir g here idle home removed =>
    have bound := registered.bound here
    have gone := removed.inaccessible coherent bound idle home
    exact removed.toEmptied.sameFile consistent bound below fun same => gone (same ▸ reached)
  | opened _ opened => exact opened.toRelinked.resources.sameFile f
  | closed _ closed => exact closed.toRelinked.resources.sameFile f
  | renamed _ renamed _ => exact renamed.resources.sameFile f

/-- No change moves a byte of a file that stays within reach. -/
theorem Change.carries (coherent : Coherent s lost) (change : Change collides s s') :
    Carries s s' := by
  have consistent := coherent.consistent
  have registered := coherent.registered
  have kept (f : FilePtr) (below : f < s.nextFile) (reached : s'.Accessible f) : SameFile s s' f :=
    change.sameFile coherent below reached
  have none_ {t : FileSystem} (same : t.nextFile = s.nextFile) (f : FilePtr) (low : s.nextFile ≤ f)
      (high : f < t.nextFile) : (t.fileMeta f).size = 0 :=
    absurd (same ▸ high) (Nat.not_lt.mpr low)
  cases change with
  | quiet quiet _ =>
    exact .of_sameFile quiet.resources.nextFile.ge (fun f _ => quiet.sameIndex.accessible.mp) kept
      quiet.resources.layout.superMeta quiet.data (none_ quiet.resources.nextFile)
  | created created _ =>
    refine .of_sameFile (created.nextFile ▸ Nat.le_succ _) (fun f bound reached => ?_) kept
      created.layout.superMeta created.data fun f low high => ?_
    · exact (created.accessible reached).resolve_left (Nat.ne_of_lt bound)
    · have newest : f = s.nextFile := by
        rw [created.nextFile] at high
        omega
      rw [newest, fileMeta, created.files, Function.update_self, created.fileMetas, Function.update_self]
      exact created.size
  | removed here idle home removed =>
    exact .of_sameFile removed.nextFile.ge (fun g _ => removed.accessible) kept removed.layout.superMeta
      removed.data (none_ removed.nextFile)
  | opened known opened =>
    have same := opened.toRelinked.resources
    refine .of_sameFile same.nextFile.ge (fun g _ reached => ?_) kept same.layout.superMeta
      opened.toRelinked.data (none_ same.nextFile)
    rcases opened.accessible reached with rfl | old
    · exact known
    · exact old
  | closed _ closed =>
    have same := closed.toRelinked.resources
    exact .of_sameFile same.nextFile.ge (fun g _ => closed.accessible) kept same.layout.superMeta
      closed.toRelinked.data (none_ same.nextFile)
  | @renamed f m known renamed _ =>
    have reentered := renamed.reentered consistent (registered.bound (known.registered registered))
    have same := renamed.resources
    refine .of_sameFile same.nextFile.ge (fun g _ reached => ?_) kept same.layout.superMeta renamed.data
      (none_ same.nextFile)
    rcases reentered.accessible reached with rfl | old
    · exact known
    · exact old

theorem carries_of_changes (coherent : Coherent s lost)
    (path : Relation.ReflTransGen (Change collides) s s') : Carries s s' := by
  induction path with
  | refl => exact .refl s
  | tail before change ih => exact ih.trans (change.carries (coherent_of_changes coherent before))

end Changes

section Truncations
variable [Crc32] {s s' : FileSystem} {env : Env} {lost : Lost} {f : FilePtr} {n p : Nat} {r : Int}

/-- A growth continues the list of its file, with the blocks the pool gives where it succeeds, and moves
no byte. -/
theorem Extension.continues (consistent : Consistent s lost) (extension : Extension s env f n s' r) :
    s.blockIds f <+: s'.blockIds f ∧ s'.superMeta = s.superMeta ∧ s'.disk.data = s.disk.data ∧
      (r = 0 → s'.blockIds f = s.blockIds f ++ s.takenIds env (blocksNeeded (s.fileMeta f).size n)) := by
  cases extension with
  | refused => exact ⟨List.prefix_rfl, rfl, rfl, fun done => absurd done (by decide)⟩
  | returned => exact ⟨List.prefix_rfl, rfl, rfl, fun done => absurd done (by decide)⟩
  | @overfull b isNew rest slot found enough overflow same ids =>
    refine ⟨?_, rfl, rfl, fun done => absurd done (by decide)⟩
    cases found with
    | new _ entries _ => simp [blockIds, attached, entries]
    | old _ entries _ => simp [blockIds, attached, entries, ids]
  | inPlace found none =>
    have same : (s.resized f n).blockIds f =
        s.blockIds f ++ s.takenIds env (blocksNeeded (s.fileMeta f).size n) := by
      rw [none, takenIds, List.take_zero, List.append_nil]
      rfl
    exact ⟨⟨_, same.symm⟩, rfl, rfl, fun _ => same⟩
  | @grown b isNew rest slot found needs enough fits same ids =>
    have grown : GrownTo s ({ s with freeFbhs := rest }.grown env f n
        (blocksNeeded (s.fileMeta f).size n) b slot
        (if isNew then (s.files f).itemMaps.insert 0 b else (s.files f).itemMaps)) env f n
      (blocksNeeded (s.fileMeta f).size n) b slot
      (if isNew then (s.files f).itemMaps.insert 0 b else (s.files f).itemMaps) rest := grownTo
    have listed := grown.blockIds_eq found.items
    rw [ids, found.ids_eq consistent] at listed
    exact ⟨⟨_, listed.symm⟩, rfl, rfl, fun _ => listed⟩

theorem Extension.sizes (extension : Extension s env f n s' r) :
    (s'.fileMeta f).size = if r = 0 then n else (s.fileMeta f).size := by
  have slot := extension.sameIndex.metaSlot f
  rw [fileMeta, slot]
  cases extension with
  | refused | returned | overfull => rfl
  | inPlace => rw [resized_fileMetas, Function.update_self]; rfl
  | grown => rw [grown_fileMetas, Function.update_self]; rfl

theorem Extension.recut (consistent : Consistent s lost) (bound : f < s.nextFile)
    (extension : Extension s env f n s' r) : Recut s s' env f n r := by
  obtain ⟨continued, superMeta, data, listed⟩ := extension.continues consistent
  have index := extension.sameIndex
  refine ⟨superMeta, index.nextFile, fun g => index.accessible.mp, fun g hg apart => ?_,
    extension.sizes, fun p inside _ => ?_, fun p behind inside => ?_⟩
  · have same := extension.others consistent bound g hg apart
    exact ⟨same.size, fun p _ => same.byteOf superMeta (by rw [data])⟩
  · obtain ⟨added, ids⟩ := continued
    have entry := consistent.entry_lt bound inside
    refine byteOf_congr superMeta ?_ (by rw [data])
    rw [← ids, List.getD_append _ _ _ _ entry]
  · have sizes := extension.sizes
    by_cases done : r = 0
    · rw [byteOf, placeOf, listed done, gapByte, data, devOffset, devOffset, superMeta]
    · rw [if_neg done] at sizes
      omega

/-- A shrink writes into one free block at most. -/
theorem Shrinkage.writes (consistent : Consistent s lost) (bound : f < s.nextFile)
    {old : FileBlockPtr} (entries : (s.files f).itemMaps.entries = [⟨0, old⟩])
    (shrinks : n < (s.fileMeta f).size) (shrinkage : Shrinkage s env f n old s' r) :
    s'.superMeta = s.superMeta ∧ (s'.disk.data = s.disk.data ∨ ∃ id ∈ s.blockIdPool, ∃ src,
      s'.disk.data = copyOver s.disk.data src (s.devOffset id 0) (n % kBlockSize)) := by
  have copies {w : Nat} {rest : List Nat} {t : FileSystem} {fileBlock : Option FileBlockPtr}
      {ids : List Nat} (free : s.freeFhs = w :: rest)
      (child : ChildBlock (s.started f w rest n) env old w n t fileBlock ids) :
      t.superMeta = s.superMeta ∧ (t.disk.data = s.disk.data ∨ ∃ id ∈ s.blockIdPool, ∃ src,
        t.disk.data = copyOver s.disk.data src (s.devOffset id 0) (n % kBlockSize)) := by
    obtain ⟨pool, rest', blocks, data, state⟩ := child.frame
    refine ⟨by rw [state]; rfl, ?_⟩
    rcases (child.takes (consistent.started free f n)).taken with
      ⟨_, _, same⟩ | ⟨_, id, pooled, _, copied⟩
    · exact .inl same
    · exact .inr ⟨id, pooled, _, copied⟩
  cases shrinkage with
  | noSlot => exact ⟨rfl, .inl rfl⟩
  | noFileBlock => exact ⟨rfl, .inl rfl⟩
  | noBlock => exact ⟨rfl, .inl rfl⟩
  | noDirectory free child _ =>
    obtain ⟨superMeta, data⟩ := copies free child
    exact ⟨superMeta, data⟩
  | @shrunk w rest t fileBlock ids dir free child found =>
    have same := @Consistent.started_sameFile _ _ f n _ consistent _ _ free _ bound
    obtain ⟨consistent', _, _, slot⟩ := child.provided (consistent.started free f n) bound entries
      (by rw [same.size]; exact shrinks)
    have distinct := consistent.metaSlot_not_free bound (show w ∈ s.freeFhs by simp [free])
    have shrunk := shrunkTo (s := t.adopted (s.files f).metaSlot w) dir f n old fileBlock
      distinct.symm consistent'.parents fun b here => (slot b here).distinct
    obtain ⟨superMeta, data⟩ := copies free child
    rw [shrunk.layout.superMeta, shrunk.data]
    exact ⟨superMeta, data⟩

/-- Bytes of files are safe from what is written into a free block. -/
theorem Consistent.copyOver_placeOf (consistent : Consistent s lost) (bound : f < s.nextFile)
    (inside : p < (s.fileMeta f).size) {id src len : Nat} (free : id ∈ s.blockIdPool)
    (short : len ≤ kBlockSize) :
    copyOver s.disk.data src (s.devOffset id 0) len (s.placeOf f p) = s.disk.data (s.placeOf f p) := by
  refine copyOver_off _ _ _ _ (consistent.placeOf_off bound inside (fun listed => ?_) short)
  exact consistent.blockIds_not_free bound listed free

/-- The whole blocks in front of the cut stay, and the bytes of the block that is cut are copied. -/
theorem CutContent.kept (consistent : Consistent s lost) (bound : f < s.nextFile) {taken : List Nat}
    (content : CutContent s s' f n taken) (superMeta : s'.superMeta = s.superMeta)
    (data : ∀ p < (s.fileMeta f).size, s'.disk.data (s.placeOf f p) = s.disk.data (s.placeOf f p))
    (inside : p < (s.fileMeta f).size) (before : p < n) : s'.byteOf f p = s.byteOf f p := by
  have entry := consistent.entry_lt bound inside
  have taken_ : ((s.blockIds f).take (n / kBlockSize)).length = min (n / kBlockSize) (s.blockIds f).length :=
    List.length_take
  have order : p / kBlockSize ≤ n / kBlockSize := Nat.div_le_div_right before.le
  rcases Nat.lt_or_eq_of_le order with whole | last
  · refine byteOf_congr superMeta ?_ (data p inside)
    rw [content.ids, List.getD_append _ _ _ _ (by omega), List.getD_eq_getElem?_getD,
      List.getElem?_take_of_lt whole, ← List.getD_eq_getElem?_getD]
  · have short : p % kBlockSize < n % kBlockSize := by
      have here := Nat.div_add_mod p kBlockSize
      have cut := Nat.div_add_mod n kBlockSize
      rw [last] at here
      omega
    obtain ⟨id, _, rfl, src, listed, copied⟩ := content.cut (by omega)
    have here : (s.blockIds f).getD (p / kBlockSize) 0 = src := by
      rw [List.getD_eq_getElem?_getD, last, listed, Option.getD_some]
    have there : (s'.blockIds f).getD (p / kBlockSize) 0 = id := by
      rw [content.ids, List.getD_append_right _ _ _ _ (by omega), taken_, last,
        Nat.min_eq_left (by omega), Nat.sub_self, List.getD_cons_zero]
    have place : s'.placeOf f p = s.devOffset id (p % kBlockSize) := by
      rw [placeOf, there, devOffset, devOffset, superMeta]
    rw [byteOf, byteOf, place, copied _ short, placeOf, here]

theorem Shrinkage.recut (consistent : Consistent s lost) (bound : f < s.nextFile) {old : FileBlockPtr}
    (known : s.Accessible f) (entries : (s.files f).itemMaps.entries = [⟨0, old⟩])
    (shrinks : n < (s.fileMeta f).size) (shrinkage : Shrinkage s env f n old s' r) :
    Recut s s' env f n r := by
  obtain ⟨superMeta, writes⟩ := shrinkage.writes consistent bound entries shrinks
  have data {g : FilePtr} (hg : g < s.nextFile) (p : Nat) (inside : p < (s.fileMeta g).size) :
      s'.disk.data (s.placeOf g p) = s.disk.data (s.placeOf g p) := by
    rcases writes with same | ⟨id, free, src, copied⟩
    · rw [same]
    · rw [copied]
      exact consistent.copyOver_placeOf hg inside free (Nat.mod_lt n kBlockSize_positive).le
  rcases shrinkage.outcome consistent bound entries shrinks with ⟨rfl, same⟩ | ⟨rfl, shifted⟩
  · refine ⟨superMeta, same.sameIndex.nextFile, fun g => same.sameIndex.accessible.mp,
      fun g hg _ => ?_, (same.sameFile f bound).size, fun p inside _ => ?_, fun p behind inside => ?_⟩
    · exact ⟨(same.sameFile g hg).size, fun p inside => (same.sameFile g hg).byteOf superMeta
        (data hg p inside)⟩
    · exact (same.sameFile f bound).byteOf superMeta (data bound p inside)
    · rw [(same.sameFile f bound).size] at inside
      omega
  · obtain ⟨w, fileBlock, taken, cutTo⟩ := shrinkage.cutTo consistent bound entries shrinks rfl
    refine ⟨superMeta, shifted.reentered.nextFile, fun g reached => ?_, fun g hg apart => ?_,
      shifted.size, fun p inside before => ?_, fun p behind inside => ?_⟩
    · rcases shifted.reentered.accessible reached with rfl | old
      · exact known
      · exact old
    · have same := shifted.others g hg apart
      exact ⟨same.size, fun p inside => same.byteOf superMeta (data hg p inside)⟩
    · rw [shifted.size] at before
      exact cutTo.content.kept consistent bound superMeta (data bound) inside before
    · rw [shifted.size] at inside
      omega

theorem Truncation.recut (consistent : Consistent s lost) (bound : f < s.nextFile)
    (known : s.Accessible f) (truncation : Truncation s env f n s' r) :
    Recut s s' env f n r := by
  cases truncation with
  | grow _ extension => exact extension.recut consistent bound
  | shrink shrinks entries shrinkage =>
    exact shrinkage.recut consistent bound known entries shrinks
  | keep same =>
    exact ⟨rfl, rfl, fun _ reached => reached, fun _ _ _ => ⟨rfl, fun _ _ => rfl⟩, same,
      fun _ _ _ => rfl, fun p behind inside => absurd inside (by omega)⟩

end Truncations

section Transfers
variable [Crc32] {s s' t u : FileSystem} {env : Env} {lost : Lost} {f : FilePtr} {b : FileBlockPtr}
  {offset len : Nat} {buffer data : Nat → UInt8} {blocks : List BlockData} {r : Int}

/-- A transfer inside a file stays in the blocks of the device. -/
theorem Consistent.pieces (consistent : Consistent s lost) (bound : f < s.nextFile)
    (entries : (s.files f).itemMaps.entries = [⟨0, b⟩])
    (plan : Plan s.superMeta (s.fileBlockMetas b) offset len 0 blocks) :
    ∀ block ∈ blocks, 0 < block.size ∧ block.blockId < s.maxBlockNum ∧
      block.devOffset + block.size ≤ s.disk.size := by
  intro block member
  obtain ⟨curr, piece, _⟩ := plan.pieces block member
  have ids := blockIds_single (s := s) (f := f) (b := b) (by simp [attached, entries])
  have listed : block.blockId ∈ s.blockIds f := by
    rw [ids, piece.blockId]
    exact List.mem_of_getElem? (FileBlockMeta.ids_getElem? piece.index)
  have known := consistent.blockIds_lt bound listed
  have region := consistent.devOffset_le known
  have inside := piece.inside
  have address : block.devOffset = s.devOffset block.blockId ((offset + curr) % kBlockSize) := by
    rw [piece.devOffset, byteAddress, ← piece.blockId, devOffset]
  rw [devOffset_add] at address
  exact ⟨piece.positive, known, by omega⟩

/-- What `lookup` finds in a backed file is its one file block. -/
theorem Consistent.entries_of_item (consistent : Consistent s lost) (bound : f < s.nextFile)
    (item : (s.files f).itemMaps.lookup 0 = some b) :
    (s.files f).itemMaps.entries = [⟨0, b⟩] ∧ Backs (s.fileBlockMetas b) (s.fileMeta f) := by
  cases consistent.rep f bound with
  | empty _ entries =>
    rw [AList.lookup, entries] at item
    simp at item
  | backed c _ entries backs =>
    have found := item
    rw [AList.lookup, entries] at found
    obtain rfl : c = b := by simpa using found
    exact ⟨entries, backs⟩

/-- A write inside a file puts every byte in its place, and touches no other byte of any file. -/
theorem Consistent.writes (consistent : Consistent s lost) (bound : f < s.nextFile)
    (item : (s.files f).itemMaps.lookup 0 = some b)
    (positive : 0 < len) (inside : offset + len ≤ (s.fileMeta f).size)
    (planned : planTransfer s.superMeta (s.fileBlockMetas b) len offset = .ok blocks)
    (moved : writeBlocks buffer blocks s.disk = .ok ({ s.disk with data := data }, r)) :
    r = (len : Int) ∧ (∀ p, offset ≤ p → p < offset + len →
        data (s.placeOf f p) = buffer (p - offset)) ∧
      ∀ g < s.nextFile, ∀ p < (s.fileMeta g).size,
        ¬(g = f ∧ offset ≤ p ∧ p < offset + len) →
          data (s.placeOf g p) = s.disk.data (s.placeOf g p) := by
  obtain ⟨entries, backs⟩ := consistent.entries_of_item bound item
  obtain ⟨blocks', planned', plan⟩ := backs.plan s.superMeta positive inside
  rw [planned] at planned'
  obtain rfl := Except.ok.inj planned'
  have place (i : Nat) (less : i < len) :
      byteAddress s.superMeta (s.fileBlockMetas b) (offset + i) = s.placeOf f (offset + i) :=
    (consistent.placeOf_eq bound (by omega) entries).symm
  have pieces := consistent.pieces bound entries plan
  have extent (block : BlockData) (member : block ∈ blocks) := (pieces block member).2.2
  have locks := locks_of_writeBlocks (fun block member => (pieces block member).1) extent moved
  obtain ⟨written, run, placed, kept⟩ :=
    plan.writeBlocks buffer ⟨locks, extent⟩ fun i hi j hj same => by
      rw [place i hi, place j hj] at same
      obtain ⟨_, meet⟩ := consistent.placeOf_inj bound (by omega) bound (by omega) same
      omega
  rw [run] at moved
  obtain ⟨same, rfl⟩ := Prod.mk.inj (Except.ok.inj moved)
  obtain rfl : written = data := congrArg Disk.data same
  refine ⟨by omega, fun p low high => ?_, fun g hg p hp off => ?_⟩
  · obtain ⟨i, rfl⟩ := Nat.exists_eq_add_of_le low
    rw [← place i (by omega), placed i (Nat.zero_le i) (by omega)]
    congr 1
    omega
  · refine kept _ fun i _ less same => ?_
    rw [place i less] at same
    obtain ⟨rfl, rfl⟩ := consistent.placeOf_inj bound (by omega) hg hp same
    exact off ⟨rfl, by omega, by omega⟩

theorem Consistent.overwritten (consistent : Consistent s lost) (bound : f < s.nextFile)
    (item : (s.files f).itemMaps.lookup 0 = some b)
    (positive : 0 < len) (inside : offset + len ≤ (s.fileMeta f).size)
    (planned : planTransfer s.superMeta (s.fileBlockMetas b) len offset = .ok blocks)
    (moved : writeBlocks buffer blocks s.disk = .ok ({ s.disk with data := data }, r))
    (quiet : Quiet s u) : r = (len : Int) ∧ Overwritten s (u.stored data) f offset len buffer := by
  obtain ⟨moved_, put, rest⟩ := consistent.writes bound item positive inside planned moved
  have place (g : FilePtr) (p : Nat) : (u.stored data).placeOf g p = s.placeOf g p := by
    have same := quiet.resources.sameFile g
    have superMeta : (u.stored data).superMeta = s.superMeta := quiet.resources.layout.superMeta
    have ids : (u.stored data).blockIds g = s.blockIds g := same.blockIds_eq
    rw [placeOf, placeOf, ids, devOffset, devOffset, superMeta]
  refine ⟨moved_, quiet.resources.layout.superMeta, quiet.resources.nextFile,
    fun g => quiet.sameIndex.accessible, fun g => (quiet.resources.sameFile g).size,
    fun p low high => ?_, fun g hg p hp off => ?_⟩
  · rw [byteOf, place]
    exact put p low high
  · rw [byteOf, byteOf, place]
    exact rest g hg p hp off

/-- What a read inside a file plans, and what it fetches once every block has a lock. -/
theorem Consistent.reads (consistent : Consistent s lost) (bound : f < s.nextFile) (positive : 0 < len)
    (inside : offset + len ≤ (s.fileMeta f).size) :
    ∃ b blocks, s.getFileBlock f 0 = some b ∧
      planTransfer s.superMeta (s.fileBlockMetas b) len offset = .ok blocks ∧
      (∀ block ∈ blocks, 0 < block.size ∧ block.blockId < s.maxBlockNum ∧
        block.devOffset + block.size ≤ s.disk.size) ∧
      ((∀ block ∈ blocks, block.blockId < kBlockLockNum) →
        ∃ back, readBlocks s.disk blocks buffer = .ok (back, (len : Int)) ∧
          ∀ i < len, back i = s.byteOf f (offset + i)) := by
  cases consistent.rep f bound with
  | empty size _ => omega
  | backed b _ entries backs =>
    obtain ⟨blocks, planned, plan⟩ := backs.plan s.superMeta positive inside
    have pieces := consistent.pieces bound entries plan
    refine ⟨b, blocks, by rw [getFileBlock, AList.lookup, entries]; simp, planned, pieces,
      fun locks => ?_⟩
    obtain ⟨back, run, fetched, _⟩ :=
      plan.readBlocks buffer ⟨locks, fun block member => (pieces block member).2.2⟩
    refine ⟨back, run, fun i less => ?_⟩
    rw [fetched i (Nat.zero_le i) less, byteOf, consistent.placeOf_eq bound (by omega) entries]

/-- What a read through an open file does: nothing outside of the file, and inside of it a transfer of
what the file has of the range. -/
theorem Coherent.pread_cases (coherent : Coherent s lost) {fd : Nat} {o : OpenFile}
    (there : s.openFiles.lookup fd = some o) (range : offset + len < 2 ^ 64) (buffer : Nat → UInt8) :
    (min len ((s.fileMeta o.file).size - offset) = 0 ∧ s.pread fd o buffer len offset = .ok (s, buffer, 0)) ∨
      ∃ blocks, s.pread fd o buffer len offset = (do
          let (buffer, ret) ← readBlocks s.disk blocks buffer
          .ok (s.advance fd o ret, buffer, ret)) ∧
        (∀ block ∈ blocks, 0 < block.size ∧ block.blockId < s.maxBlockNum ∧
          block.devOffset + block.size ≤ s.disk.size) ∧
        ((∀ block ∈ blocks, block.blockId < kBlockLockNum) → ∃ back,
          readBlocks s.disk blocks buffer =
            .ok (back, ((min len ((s.fileMeta o.file).size - offset) : Nat) : Int)) ∧
          ∀ i < min len ((s.fileMeta o.file).size - offset), back i = s.byteOf o.file (offset + i)) := by
  have bound := coherent.open_lt there
  by_cases nothing : len = 0 ∨ (s.fileMeta o.file).size ≤ offset
  · exact .inl ⟨by omega, pread_nothing nothing⟩
  · push Not at nothing
    have clip : (if (s.fileMeta o.file).size < (offset + len) % 2 ^ 64 then
        (s.fileMeta o.file).size - offset else len) = min len ((s.fileMeta o.file).size - offset) := by
      rw [Nat.mod_eq_of_lt range]
      split <;> omega
    obtain ⟨b, blocks, item, planned, pieces, fetches⟩ :=
      @Consistent.reads _ s lost o.file offset (min len ((s.fileMeta o.file).size - offset)) buffer
        coherent.consistent bound (by omega) (by omega)
    refine .inr ⟨blocks, ?_, pieces, fetches⟩
    unfold pread
    dsimp only
    rw [if_neg (by omega), clip, readData, item]
    dsimp only
    rw [planned, Except.ok_bind]

/-- On a device that the block locks cover, a read through an open file transfers what the file has of
the range, and no less. -/
theorem Coherent.preadFile_reads (coherent : Coherent s lost)
    (few : s.superMeta.currBlockNum ≤ kBlockLockNum) {fd : Nat} {offset : Int}
    (opened : s.openedFile fd = some f) (range : toU64 offset + len < 2 ^ 64) (buffer : Nat → UInt8) :
    ∃ s' back, s.preadFile fd buffer len offset =
        .ok (s', back, ((min len ((s.fileMeta f).size - toU64 offset) : Nat) : Int)) ∧
      ∀ i < min len ((s.fileMeta f).size - toU64 offset), back i = s.byteOf f (toU64 offset + i) := by
  obtain ⟨o, there, rfl⟩ : ∃ o, s.openFiles.lookup fd = some o ∧ o.file = f := by
    simpa [openedFile] using opened
  rw [preadFile, getOpenFile_of_lookup there]
  dsimp only
  rcases coherent.pread_cases there range buffer with ⟨none_, run⟩ | ⟨blocks, run, pieces, fetches⟩
  · rw [none_, run]
    exact ⟨s, buffer, rfl, fun i less => by omega⟩
  · have counted := coherent.consistent.maxBlockNum_le
    obtain ⟨back, moved, fetched⟩ := fetches fun block member => by
      have known := (pieces block member).2.1
      omega
    rw [moved, Except.ok_bind] at run
    exact ⟨_, back, run, fetched⟩

/-- Whatever a read returns are the bytes of the file. -/
theorem Coherent.preadFile_bytes (coherent : Coherent s lost) {fd : Nat} {offset : Int}
    (opened : s.openedFile fd = some f) (length : len < 2 ^ 64) {back : Nat → UInt8}
    (result : s.preadFile fd buffer len offset = .ok (s', back, r)) :
    r = ((min len ((s.fileMeta f).size - toU64 offset) : Nat) : Int) ∧
      ∀ i < min len ((s.fileMeta f).size - toU64 offset), back i = s.byteOf f (toU64 offset + i) := by
  obtain ⟨o, there, rfl⟩ : ∃ o, s.openFiles.lookup fd = some o ∧ o.file = f := by
    simpa [openedFile] using opened
  have bound := coherent.open_lt there
  rw [preadFile, getOpenFile_of_lookup there] at result
  dsimp only at result
  by_cases nothing : len = 0 ∨ (s.fileMeta o.file).size ≤ toU64 offset
  · rw [pread_nothing nothing] at result
    obtain ⟨_, same⟩ := Prod.mk.inj (Except.ok.inj result)
    obtain ⟨_, rfl⟩ := Prod.mk.inj same
    exact ⟨by omega, fun i less => by omega⟩
  push Not at nothing
  have range : toU64 offset + len < 2 ^ 64 := by
    by_contra wraps
    have short : toU64 offset < 2 ^ 64 := by unfold toU64; omega
    obtain ⟨fault, stops, _⟩ := @pread_wrapped _ s lost fd len (toU64 offset) o buffer coherent bound
      length nothing.1 nothing.2 (by omega) short
    rw [stops] at result
    simp at result
  rcases coherent.pread_cases there range buffer with ⟨none_, _⟩ | ⟨blocks, run, pieces, fetches⟩
  · omega
  · rw [run] at result
    obtain ⟨⟨found, n⟩, moved, done⟩ := Except.bind_eq_ok.mp result
    obtain ⟨_, same⟩ := Prod.mk.inj (Except.ok.inj done)
    obtain ⟨rfl, rfl⟩ := Prod.mk.inj same
    obtain ⟨back', moved', fetched⟩ := fetches (locks_of_readBlocks
      (fun block member => (pieces block member).1) (fun block member => (pieces block member).2.2) moved)
    obtain ⟨rfl, rfl⟩ := Prod.mk.inj (Except.ok.inj (moved.symm.trans moved'))
    exact ⟨rfl, fetched⟩

end Transfers

end BlockFs.FileSystem
