import BlockFs.Counts
import BlockFs.Growth

namespace BlockFs

/-- A read or write with arguments of the types `size_t` and `off_t`. -/
inductive IoCall : Op → Prop
  | pread {fd len : Nat} {offset : Int} (length : len < 2 ^ 64) (low : -2 ^ 63 ≤ offset)
    (high : offset < 2 ^ 63) : IoCall (.pread fd len offset)
  | read {fd : Int} {len : Nat} (length : len < 2 ^ 64) : IoCall (.read fd len)
  | pwrite {fd len : Nat} {offset : Int} {buffer : Nat → UInt8} (length : len < 2 ^ 64)
    (low : -2 ^ 63 ≤ offset) (high : offset < 2 ^ 63) : IoCall (.pwrite fd buffer len offset)

namespace FileSystem

/-- The transfer is part of the range asked for. A read stays in front of the end of the file, and
behind a write the file reaches to the end of the range. -/
def Bounds (s s' : FileSystem) (op : Op) (size offset : Nat) : Prop :=
  match op with
  | .pread fd len start => start = offset ∧ size ≤ len ∧
    ∀ o, s.openFiles.lookup fd = some o → offset + size ≤ (s.fileMeta o.file).size
  | .read fd len => size ≤ len ∧ ∀ o, s.openFiles.lookup (toU64 fd) = some o →
    o.appendPos = offset ∧ offset + size ≤ (s.fileMeta o.file).size
  | .pwrite fd _ len start => start = offset ∧ size = len ∧
    ∀ o, s.openFiles.lookup fd = some o → offset + len ≤ (s'.fileMeta o.file).size
  | _ => True

/-- The call fails no assertion about contents. It returns an error or 0 and leaves the device alone,
or its transfer lies in listed blocks of the file and within bounds. -/
structure Contained [Crc32] (s : FileSystem) (env : Env) (op : Op) : Prop where
  runs : ∀ fault, s.call env op = .error fault → ¬fault.OfContent
  inside : ∀ s' r, s.call env op = .ok (s', r) → (r ≤ 0 ∧ s'.disk = s.disk) ∨
    ∃ m size offset blocks, Transfer s env op m size offset ∧
      planTransfer s.superMeta m size offset = .ok blocks ∧ m.usedBlockNum ≤ kFileBlockCapacity ∧
      (∀ block ∈ blocks, ∃ curr, Piece s.superMeta m offset curr block ∧ curr + block.size ≤ size) ∧
      s.Bounds s' op size offset

/-- The end of the range does not wrap, unless nothing is transferred: the length is 0, a read starts
behind the end of the file, or a write asks for a growth that is refused. -/
def StaysInRange (s : FileSystem) (op : Op) : Prop :=
  match op with
  | .pread fd len start => ∀ o, s.openFiles.lookup fd = some o →
    len = 0 ∨ (s.fileMeta o.file).size ≤ toU64 start ∨ toU64 start + len < 2 ^ 64
  | .read fd len => ∀ o, s.openFiles.lookup (toU64 fd) = some o →
    len = 0 ∨ (s.fileMeta o.file).size ≤ o.appendPos ∨ o.appendPos + len < 2 ^ 64
  | .pwrite fd _ len start => ∀ o, s.openFiles.lookup fd = some o →
    len = 0 ∨ toU64 start + len < 2 ^ 64 ∨
      ((s.fileMeta o.file).size < (toU64 start + len) % 2 ^ 64 ∧
        ¬s.HasRoom o.file ((toU64 start + len) % 2 ^ 64))
  | _ => True

end FileSystem

section Plans
variable {super : SuperBlockMeta} {m : FileBlockMeta} {len offset size curr : Nat}
  {blocks : List BlockData}

theorem planBlocks_fault {fuel index inBlock : Nat} {fault : Fault}
    (stops : planBlocks super m size fuel curr index inBlock = .error fault) : fault.OfContent := by
  induction fuel generalizing curr index inBlock with
  | zero =>
    obtain rfl := Except.error.inj stops
    simp [Fault.OfContent]
  | succ fuel ih =>
    unfold planBlocks at stops
    rcases Except.bind_eq_error.mp stops with entry | ⟨id, _, rest⟩
    · unfold FileBlockMeta.getBlockId at entry
      split at entry
      · simp at entry
      · obtain rfl := Except.error.inj entry
        simp [Fault.OfContent]
    · dsimp only at rest
      generalize (if 0 < inBlock then min size (kBlockSize - inBlock)
        else min (size - curr) kBlockSize) = n at rest
      split at rest
      · simp at rest
      · rcases Except.bind_eq_error.mp rest with later | ⟨_, _, done⟩
        · exact ih later
        · simp at done

/-- A range whose end wraps is never planned: it would need entries behind the last one of the
table. -/
theorem planTransfer_wrapped (super : SuperBlockMeta) (m : FileBlockMeta) (bound : offset < 2 ^ 64)
    (positive : 0 < len) (wraps : 2 ^ 64 ≤ offset + len) :
    ∃ fault, planTransfer super m len offset = .error fault ∧ fault.OfContent := by
  cases planned : planTransfer super m len offset with
  | error fault => exact ⟨fault, rfl, planBlocks_fault planned⟩
  | ok blocks =>
    have room := (planTransfer_covers planned positive).2
    rw [show kBlockSize = 4194304 from rfl, show kFileBlockCapacity = 1000 from rfl] at room
    omega

theorem Plan.pieces (plan : Plan super m offset size curr blocks) :
    ∀ block ∈ blocks, ∃ curr, Piece super m offset curr block ∧ curr + block.size ≤ size := by
  induction plan with
  | @last curr block piece ends =>
    intro other member
    rw [List.mem_singleton.mp member]
    exact ⟨curr, piece, ends.le⟩
  | @more curr block blocks piece rest ih =>
    intro other member
    rcases List.mem_cons.mp member with rfl | later
    · exact ⟨curr, piece, rest.lt.le⟩
    · exact ih other later

end Plans

namespace FileSystem

section Reads
variable [Crc32] {s s' : FileSystem} {lost : Lost} {fd len position : Nat} {o : OpenFile}
  {buffer back : Nat → UInt8} {r : Int}

omit [Crc32] in
theorem pread_nothing (nothing : len = 0 ∨ (s.fileMeta o.file).size ≤ position) :
    s.pread fd o buffer len position = .ok (s, buffer, 0) := by
  unfold pread
  dsimp only
  rw [if_pos nothing]

/-- A read that starts in the file and whose end wraps is not clipped, and stops. -/
theorem pread_wrapped (coherent : Coherent s lost) (bound : o.file < s.nextFile) (length : len < 2 ^ 64)
    (some_ : len ≠ 0) (starts : position < (s.fileMeta o.file).size) (wraps : 2 ^ 64 ≤ position + len)
    (short : position < 2 ^ 64) :
    ∃ fault, s.pread fd o buffer len position = .error fault ∧ fault.OfContent := by
  obtain ⟨b, item⟩ := coherent.has_item bound (by omega)
  obtain ⟨fault, stops, content⟩ :=
    planTransfer_wrapped s.superMeta (s.fileBlockMetas b) short (Nat.pos_of_ne_zero some_) wraps
  refine ⟨fault, ?_, content⟩
  unfold pread readData
  dsimp only
  rw [if_neg (by omega), if_neg (by omega), item]
  dsimp only
  rw [stops]
  rfl

theorem Coherent.size_lt (coherent : Coherent s lost) {f : FilePtr} (bound : f < s.nextFile) :
    (s.fileMeta f).size < 2 ^ 63 := by
  cases coherent.consistent.rep f bound with
  | empty size _ => omega
  | backed b _ _ backs =>
    have covers := backs.covers
    have bounded := backs.bounded
    rw [show kBlockSize = 4194304 from rfl] at covers
    rw [show kFileBlockCapacity = 1000 from rfl] at bounded
    omega

omit [Crc32] in
theorem toU64_of_small {n : Int} (low : -2 ^ 63 ≤ n) (high : n < 2 ^ 63) (small : toU64 n < 2 ^ 63) :
    n = toU64 n := by
  unfold toU64 at small ⊢
  omega

/-- The transfer of a read whose end does not wrap. -/
theorem read_planned (coherent : Coherent s lost) (bound : o.file < s.nextFile) (some_ : len ≠ 0)
    (starts : position < (s.fileMeta o.file).size) (range : position + len < 2 ^ 64) :
    ∃ b size blocks, s.getFileBlock o.file 0 = some b ∧
      size = (if (s.fileMeta o.file).size < (position + len) % 2 ^ 64 then
        (s.fileMeta o.file).size - position else len) ∧ size ≤ len ∧
      position + size ≤ (s.fileMeta o.file).size ∧
      planTransfer s.superMeta (s.fileBlockMetas b) size position = .ok blocks ∧
      (s.fileBlockMetas b).usedBlockNum ≤ kFileBlockCapacity ∧
      ∀ block ∈ blocks, ∃ curr, Piece s.superMeta (s.fileBlockMetas b) position curr block ∧
        curr + block.size ≤ size := by
  obtain ⟨b, item⟩ := coherent.has_item bound (by omega)
  have backs := coherent.item bound item
  obtain ⟨positive, inside⟩ := clipped range some_ starts
  obtain ⟨blocks, planned, plan⟩ := backs.plan s.superMeta positive inside
  refine ⟨b, _, blocks, item, rfl, ?_, inside, planned, backs.bounded, plan.pieces⟩
  rw [Nat.mod_eq_of_lt range]
  split <;> omega

end Reads

section Calls
variable [Crc32] {s s' : FileSystem} {env : Env} {lost : Lost} {fd len : Nat} {offset : Int}
  {buffer : Nat → UInt8}

omit [Crc32] in
theorem getOpenFile_of_lookup {o : OpenFile} (opened : s.openFiles.lookup fd = some o) :
    s.getOpenFile fd = .ok o := by
  rw [getOpenFile, opened]

theorem Coherent.open_lt (coherent : Coherent s lost) {o : OpenFile}
    (opened : s.openFiles.lookup fd = some o) : o.file < s.nextFile := by
  have there : s.openedFile fd = some o.file := by
    rw [openedFile, opened]
    rfl
  exact coherent.registered.bound (coherent.registered.opens fd o.file there)

/-- A call on no open file returns an error. -/
theorem contained_of_refused {op : Op} (refused : ∃ e, s.call env op = .ok ({ s with errno := e }, -1)) :
    s.Contained env op := by
  obtain ⟨e, run⟩ := refused
  constructor
  · intro fault stops
    rw [run] at stops
    simp at stops
  · intro s' r result
    rw [run] at result
    obtain ⟨rfl, rfl⟩ := Prod.mk.inj (Except.ok.inj result)
    exact .inl ⟨by decide, rfl⟩

theorem contained_of_done {op : Op} (run : s.call env op = .ok (s, 0)) : s.Contained env op := by
  constructor
  · intro fault stops
    rw [run] at stops
    simp at stops
  · intro s' r result
    rw [run] at result
    obtain ⟨rfl, rfl⟩ := Prod.mk.inj (Except.ok.inj result)
    exact .inl ⟨le_refl 0, rfl⟩

/-- A call that reads at `position` is contained exactly when its end does not wrap or nothing is
read. -/
theorem readCall_contained_iff {op : Op} {o : OpenFile} {position : Nat} (coherent : Coherent s lost)
    (bound : o.file < s.nextFile) (length : len < 2 ^ 64)
    (called : s.call env op =
      s.pread fd o (fun _ => 0) len position >>= fun out => .ok (out.1, out.2.2))
    (transfers : ∀ b, s.getFileBlock o.file 0 = some b →
      len ≠ 0 ∧ position < (s.fileMeta o.file).size → Transfer s env op (s.fileBlockMetas b)
        (if (s.fileMeta o.file).size < (position + len) % 2 ^ 64 then
          (s.fileMeta o.file).size - position else len) position)
    (bounds : ∀ s' size, position < 2 ^ 63 → size ≤ len → position + size ≤ (s.fileMeta o.file).size →
      s.Bounds s' op size position) :
    s.Contained env op ↔ len = 0 ∨ (s.fileMeta o.file).size ≤ position ∨ position + len < 2 ^ 64 := by
  have limit := coherent.size_lt bound
  constructor
  · intro contained
    by_contra wraps
    push Not at wraps
    obtain ⟨some_, starts, wraps⟩ := wraps
    obtain ⟨fault, stops, content⟩ := @pread_wrapped _ s lost fd len position o (fun _ => 0)
      coherent bound length some_ starts wraps (by omega)
    refine contained.runs fault ?_ content
    rw [called, stops]
    rfl
  · intro stays
    by_cases nothing : len = 0 ∨ (s.fileMeta o.file).size ≤ position
    · have run : s.call env op = .ok (s, 0) := by
        rw [called, pread_nothing nothing]
        rfl
      exact contained_of_done run
    · have range := (or_assoc.mpr stays).resolve_left nothing
      push Not at nothing
      obtain ⟨b, size, blocks, item, same, most, inside, planned, bounded, pieces⟩ :=
        read_planned coherent bound nothing.1 nothing.2 range
      have transfer := transfers b item nothing
      rw [← same] at transfer
      constructor
      · intro fault stops
        rw [called] at stops
        rcases Except.bind_eq_error.mp stops with reading | ⟨_, _, done⟩
        · obtain rfl := pread_fault (fun c item' _ => ⟨blocks, by
            rw [item] at item'
            obtain rfl := Option.some.inj item'
            rw [← same]
            exact planned⟩) reading
          simp [Fault.OfContent]
        · simp at done
      · intro s' r _
        exact .inr ⟨_, size, position, blocks, transfer, planned, bounded, pieces,
          bounds s' size (by omega) most inside⟩

theorem pread_contained_iff (coherent : Coherent s lost) (length : len < 2 ^ 64)
    (low : -2 ^ 63 ≤ offset) (high : offset < 2 ^ 63) :
    s.Contained env (.pread fd len offset) ↔ s.StaysInRange (.pread fd len offset) := by
  cases opened : s.openFiles.lookup fd with
  | none =>
    refine iff_of_true (contained_of_refused ⟨ENOENT, ?_⟩) fun o there => ?_
    · rw [call, preadFile, getOpenFile, opened]
      rfl
    · simp [opened] at there
  | some o =>
    rw [@readCall_contained_iff _ s env lost fd len (.pread fd len offset) o (toU64 offset) coherent
      (coherent.open_lt opened) length]
    · simp [StaysInRange, opened]
    · rw [call, preadFile, getOpenFile_of_lookup opened]
    · exact fun b item starts => .pread opened starts item
    · intro s' size small most inside
      refine ⟨toU64_of_small low high small, most, fun p again => ?_⟩
      rw [opened] at again
      obtain rfl := Option.some.inj again
      exact inside

theorem read_contained_iff {fd : Int} (coherent : Coherent s lost) (length : len < 2 ^ 64) :
    s.Contained env (.read fd len) ↔ s.StaysInRange (.read fd len) := by
  cases opened : s.openFiles.lookup (toU64 fd) with
  | none =>
    refine iff_of_true (contained_of_refused ⟨EBADF, ?_⟩) fun o there => ?_
    · rw [call, readFile, getOpenFile, opened]
      rfl
    · simp [opened] at there
  | some o =>
    rw [@readCall_contained_iff _ s env lost (toU64 fd) len (.read fd len) o o.appendPos coherent
      (coherent.open_lt opened) length]
    · simp [StaysInRange, opened]
    · rw [call, readFile, getOpenFile_of_lookup opened]
    · exact fun b item starts => .read opened starts item
    · intro s' size _ most inside
      refine ⟨most, fun p again => ?_⟩
      rw [opened] at again
      obtain rfl := Option.some.inj again
      exact ⟨rfl, inside⟩

section Pwrite
variable {o : OpenFile} {position : Nat}

omit [Crc32] in
/-- Whatever the file, a write whose end wraps stops where it plans its transfer. -/
theorem writeData_wrapped (t : FileSystem) (bound : position < 2 ^ 64) (positive : 0 < len)
    (wraps : 2 ^ 64 ≤ position + len) :
    ∃ fault, t.writeData fd o buffer len position = .error fault ∧ fault.OfContent := by
  unfold writeData
  cases t.getFileBlock o.file 0 with
  | none => exact ⟨.nullFileBlock, rfl, by simp [Fault.OfContent]⟩
  | some b =>
    obtain ⟨fault, stops, content⟩ :=
      planTransfer_wrapped t.superMeta (t.fileBlockMetas b) bound positive wraps
    refine ⟨fault, ?_, content⟩
    dsimp only
    rw [stops]
    rfl

theorem Extension.disk_of_refused {f : FilePtr} {n : Nat} {r : Int}
    (extension : Extension s env f n s' r) (refused : r ≠ 0) : s'.disk = s.disk := by
  cases extension with
  | refused => rfl
  | returned => rfl
  | overfull => rfl
  | inPlace => exact absurd rfl refused
  | grown => exact absurd rfl refused

/-- The growth of a write goes on to its transfer exactly when there is room. -/
theorem pwrite_grows (coherent : Coherent s lost) (ok : env.IoOk) (bound : o.file < s.nextFile)
    (some_ : len ≠ 0) (grows : (s.fileMeta o.file).size < (position + len) % 2 ^ 64)
    (narrow : s.Narrow o.file ((position + len) % 2 ^ 64)) :
    ∃ t, s.ftruncate env o.file ((position + len) % 2 ^ 64) = .ok (t, 0) ∧
        s.HasRoom o.file ((position + len) % 2 ^ 64) ∧
        s.pwrite env fd o buffer len position =
          (t.stamped env o.file).writeData fd o buffer len position ∨
      s.pwrite env fd o buffer len position = .ok (t, -1) ∧
        ¬s.HasRoom o.file ((position + len) % 2 ^ 64) ∧ t.disk = s.disk := by
  obtain ⟨t, r, run, extension⟩ := extendFile_cases coherent.consistent ok bound grows narrow
  have room := extension.done_iff coherent.consistent bound run
  have truncated : s.ftruncate env o.file ((position + len) % 2 ^ 64) = .ok (t, r) := by
    rw [ftruncate, if_pos grows, run]
  refine ⟨t, ?_⟩
  unfold pwrite
  rw [if_neg some_, if_pos grows, truncated, Except.ok_bind]
  dsimp only
  by_cases done : r = 0
  · rw [done] at truncated ⊢
    exact .inl ⟨rfl, room.mp done, rfl⟩
  · have failed : r = -1 := by
      cases extension with
      | refused | returned | overfull => rfl
      | inPlace | grown => exact absurd rfl done
    rw [failed]
    exact .inr ⟨rfl, fun has => done (room.mpr has), extension.disk_of_refused done⟩

theorem pwrite_fits (some_ : len ≠ 0)
    (fits : ¬(s.fileMeta o.file).size < (position + len) % 2 ^ 64) :
    s.pwrite env fd o buffer len position =
      (s.stamped env o.file).writeData fd o buffer len position := by
  unfold pwrite
  rw [if_neg some_, if_neg fits]
  rfl

theorem writeData_size {t : FileSystem} {r : Int}
    (result : (t.stamped env o.file).writeData fd o buffer len position = .ok (s', r)) :
    (s'.fileMeta o.file).size = (t.fileMeta o.file).size := by
  have stamped : ((t.stamped env o.file).fileMeta o.file).size = (t.fileMeta o.file).size := by
    unfold FileSystem.stamped
    split
    · exact view_update t.fileMetas _ _ (·.size) rfl
    · rfl
  unfold writeData at result
  split at result
  · simp at result
  · obtain ⟨blocks, _, result⟩ := Except.bind_eq_ok.mp result
    obtain ⟨⟨disk, moved⟩, _, result⟩ := Except.bind_eq_ok.mp result
    obtain ⟨rfl, _⟩ := Prod.mk.inj (Except.ok.inj result)
    exact stamped

/-- A write whose end does not wrap is contained. -/
theorem pwrite_contained (coherent : Coherent s lost) (ok : env.IoOk) (some_ : len ≠ 0)
    (range : toU64 offset + len < 2 ^ 64) (low : -2 ^ 63 ≤ offset) (high : offset < 2 ^ 63)
    (narrow : s.NarrowCall (.pwrite fd buffer len offset)) (opened : s.openFiles.lookup fd = some o) :
    s.Contained env (.pwrite fd buffer len offset) := by
  have found := getOpenFile_of_lookup opened
  have bound := coherent.open_lt opened
  have target (grows : (s.fileMeta o.file).size < (toU64 offset + len) % 2 ^ 64) :
      s.Narrow o.file ((toU64 offset + len) % 2 ^ 64) := by
    refine narrow _ _ ?_
    simp only [ftruncateCall, getOpenFile_ok found]
    rw [if_pos ⟨some_, grows⟩]
  constructor
  · exact fun fault stops => call_fault coherent ok narrow range stops
  · intro s' r result
    rw [call, pwriteFile, found] at result
    dsimp only at result
    -- The transfer behind a growth, or without one.
    have transfers (t : FileSystem) (r₀ : Int) (succeeded : 0 ≤ r₀)
        (grown : (if (s.fileMeta o.file).size < (toU64 offset + len) % 2 ^ 64 then
          s.ftruncate env o.file ((toU64 offset + len) % 2 ^ 64) else .ok (s, 0)) = .ok (t, r₀))
        (wrote : (t.stamped env o.file).writeData fd o buffer len (toU64 offset) = .ok (s', r)) :
        ∃ m size at_ blocks, Transfer s env (.pwrite fd buffer len offset) m size at_ ∧
          planTransfer s.superMeta m size at_ = .ok blocks ∧ m.usedBlockNum ≤ kFileBlockCapacity ∧
          (∀ block ∈ blocks, ∃ curr, Piece s.superMeta m at_ curr block ∧ curr + block.size ≤ size) ∧
          s.Bounds s' (.pwrite fd buffer len offset) size at_ := by
      obtain ⟨inside, bound', lost', coherent'⟩ :=
        grown_size coherent ok (.inl ⟨fd, getOpenFile_ok found⟩) range target grown succeeded
      obtain ⟨b, item⟩ := coherent'.has_item bound' (by omega)
      have backs := coherent'.item bound' item
      obtain ⟨blocks, planned, plan⟩ := backs.plan s.superMeta (Nat.pos_of_ne_zero some_) inside
      have transfer : Transfer s env (.pwrite fd buffer len offset) (t.fileBlockMetas b) len
          (toU64 offset) := .pwrite opened some_ grown succeeded item
      have limit := coherent'.size_lt bound'
      refine ⟨_, _, _, blocks, transfer, planned, backs.bounded, plan.pieces,
        toU64_of_small low high (by omega), rfl, fun p again => ?_⟩
      rw [opened] at again
      obtain rfl := Option.some.inj again
      rw [writeData_size wrote]
      exact inside
    by_cases grows : (s.fileMeta o.file).size < (toU64 offset + len) % 2 ^ 64
    · obtain ⟨t, ⟨grown, _, run⟩ | ⟨run, _, disk⟩⟩ :=
        @pwrite_grows _ s env lost fd len buffer o (toU64 offset) coherent ok bound some_ grows
          (target grows)
      · rw [run] at result
        exact .inr (transfers t 0 (le_refl 0) (by rw [if_pos grows, grown]) result)
      · rw [run] at result
        obtain ⟨rfl, rfl⟩ := Prod.mk.inj (Except.ok.inj result)
        exact .inl ⟨by decide, disk⟩
    · rw [pwrite_fits some_ grows] at result
      exact .inr (transfers s 0 (le_refl 0) (if_neg grows) result)

theorem pwrite_contained_iff (coherent : Coherent s lost) (ok : env.IoOk)
    (low : -2 ^ 63 ≤ offset) (high : offset < 2 ^ 63)
    (narrow : s.NarrowCall (.pwrite fd buffer len offset)) :
    s.Contained env (.pwrite fd buffer len offset) ↔ s.StaysInRange (.pwrite fd buffer len offset) := by
  cases opened : s.openFiles.lookup fd with
  | none =>
    refine iff_of_true (contained_of_refused ⟨ENOENT, ?_⟩) fun o there => ?_
    · rw [call, pwriteFile, getOpenFile, opened]
    · simp [opened] at there
  | some o =>
    have found := getOpenFile_of_lookup opened
    have bound := coherent.open_lt opened
    have short := toU64_lt offset
    have called : s.call env (.pwrite fd buffer len offset) =
        s.pwrite env fd o buffer len (toU64 offset) := by
      rw [call, pwriteFile, found]
    have target (some_ : len ≠ 0)
        (grows : (s.fileMeta o.file).size < (toU64 offset + len) % 2 ^ 64) :
        s.Narrow o.file ((toU64 offset + len) % 2 ^ 64) := by
      refine narrow _ _ ?_
      simp only [ftruncateCall, getOpenFile_ok found]
      rw [if_pos ⟨some_, grows⟩]
    constructor
    · intro contained p again
      rw [opened] at again
      obtain rfl := Option.some.inj again
      by_contra wraps
      push Not at wraps
      obtain ⟨some_, wraps, room⟩ := wraps
      have stops (t : FileSystem) := @writeData_wrapped fd len buffer o (toU64 offset)
        (t.stamped env o.file) short (Nat.pos_of_ne_zero some_) wraps
      have run : ∃ t : FileSystem, s.pwrite env fd o buffer len (toU64 offset) =
          (t.stamped env o.file).writeData fd o buffer len (toU64 offset) := by
        by_cases grows : (s.fileMeta o.file).size < (toU64 offset + len) % 2 ^ 64
        · obtain ⟨t, ⟨_, _, run⟩ | ⟨_, full, _⟩⟩ :=
            @pwrite_grows _ s env lost fd len buffer o (toU64 offset) coherent ok bound some_ grows
              (target some_ grows)
          · exact ⟨t, run⟩
          · exact absurd (room grows) full
        · exact ⟨s, pwrite_fits some_ grows⟩
      obtain ⟨t, run⟩ := run
      obtain ⟨fault, failed, content⟩ := stops t
      refine contained.runs fault ?_ content
      rw [called, run, failed]
    · intro stays
      replace stays := stays o opened
      by_cases empty : len = 0
      · refine contained_of_done ?_
        rw [called, pwrite, if_pos empty]
      by_cases range : toU64 offset + len < 2 ^ 64
      · exact pwrite_contained coherent ok empty range low high narrow opened
      · obtain ⟨grows, full⟩ := (stays.resolve_left empty).resolve_left range
        obtain ⟨t, ⟨_, room, _⟩ | ⟨run, _, disk⟩⟩ :=
          @pwrite_grows _ s env lost fd len buffer o (toU64 offset) coherent ok bound empty grows
            (target empty grows)
        · exact absurd room full
        · constructor
          · intro fault stops
            rw [called, run] at stops
            simp at stops
          · intro s' r result
            rw [called, run] at result
            obtain ⟨rfl, rfl⟩ := Prod.mk.inj (Except.ok.inj result)
            exact .inl ⟨by decide, disk⟩

end Pwrite

end Calls

end FileSystem

end BlockFs
