import BlockFs.Effects

namespace BlockFs.FileSystem

/-- Where the call grows a file, the device holds zeros in every place that comes to the file, except
where the call itself writes. -/
def BlankGaps (s : FileSystem) (e : Event) : Prop :=
  ∀ f n, s.ftruncateCall e.op = some (f, n) → s.HasRoom f n → ∀ p, (s.fileMeta f).size ≤ p → p < n →
    covers e.op p = false → s.gapByte e.env f n p = 0

/-- Every byte of a file that was not written is zero. -/
def Blank (s : FileSystem) (written : LastWrites) : Prop :=
  ∀ f < s.nextFile, s.Accessible f → ∀ p < (s.fileMeta f).size, written f p = none → s.byteOf f p = 0

/-- The states of a sequential run whose growths find zeros, together with what was last written to the
files. -/
def BlankRun [Crc32] : FileSystem × LastWrites → Prop :=
  Transition.Recording FreshlyMounted (fun s e => e.env.IoOk ∧ s.NarrowCall e.op ∧ s.BlankGaps e) Step record
    fun _ _ => none

/-- The states of any sequential run of narrow calls. -/
def NarrowRun [Crc32] : FileSystem × LastWrites → Prop :=
  Transition.Recording FreshlyMounted (fun s e => e.env.IoOk ∧ s.NarrowCall e.op) Step record
    fun _ _ => none

section Steps
variable [Crc32] {s s' t u : FileSystem} {e : Event} {written : LastWrites} {f : FilePtr} {n p : Nat}
  {env : Env} {r : Int}

omit [Crc32] in
theorem Blank.carries (blank : s.Blank written) (carries : Carries s s') : s'.Blank written := by
  intro f bound reached p inside unwritten
  by_cases old : f < s.nextFile
  · have size := carries.size f old reached
    rw [carries.bytes f old reached p (by omega)]
    exact blank f old (carries.accessible f old reached) p (by omega) unwritten
  · have size := carries.made f (Nat.not_lt.mp old) bound reached
    omega

omit [Crc32] in
/-- A truncation leaves a file blank where what comes to it is blank. -/
theorem Blank.truncated {later : LastWrites} (blank : s.Blank written) (before : Carries s t)
    (recut : Recut t u env f n r) (behind : Carries u s')
    (others : ∀ g ≠ f, ∀ p, later g p = none → written g p = none)
    (same : ∀ p < (s'.fileMeta f).size, p < (t.fileMeta f).size →
      ((s'.fileMeta f).size = n → p < n) → later f p = none → written f p = none)
    (gaps : r = 0 → ∀ p, (t.fileMeta f).size ≤ p → p < n → later f p = none → t.gapByte env f n p = 0) :
    s'.Blank later := by
  intro g bound reached p inside unwritten
  by_cases old : g < u.nextFile
  swap
  · have size := behind.made g (Nat.not_lt.mp old) bound reached
    omega
  have size := behind.size g old reached
  have reached' := behind.accessible g old reached
  have blank' := blank.carries before g (recut.nextFile ▸ old) (recut.accessible g reached')
  rw [behind.bytes g old reached p (by omega)]
  by_cases other : g ≠ f
  · obtain ⟨size', bytes⟩ := recut.others g (recut.nextFile ▸ old) other
    rw [bytes p (by omega)]
    exact blank' p (by omega) (others g other p unwritten)
  · obtain rfl := not_not.mp other
    have cut := recut.size
    by_cases here : p < (t.fileMeta g).size
    · rw [recut.kept p here (by omega)]
      exact blank' p here (same p inside here (by omega) unwritten)
    · rw [recut.gap p (Nat.not_lt.mp here) (by omega)]
      by_cases done : r = 0
      · rw [if_pos done] at cut
        exact gaps done p (Nat.not_lt.mp here) (by omega) unwritten
      · rw [if_neg done] at cut
        omega

omit [Crc32] in
/-- A write leaves a blank file blank where it was not made. -/
theorem Blank.overwritten {offset len : Nat} {buffer : Nat → UInt8} (blank : s.Blank written)
    (overwritten : Overwritten s s' f offset len buffer)
    (filled : ∀ p, offset ≤ p → p < offset + len → written f p ≠ none) : s'.Blank written := by
  intro g bound reached p inside unwritten
  have old : g < s.nextFile := overwritten.nextFile ▸ bound
  rw [overwritten.size] at inside
  rw [overwritten.rest g old p inside ?_]
  · exact blank g old ((overwritten.accessible g).mp reached) p inside unwritten
  · rintro ⟨rfl, low, high⟩
    exact filled p low high unwritten

/-- In front of a cut, a call forgets nothing. -/
theorem written_of_record (call : s.ftruncateCall e.op = some (f, n))
    (unwritten : s.record e s' written f p = none) (before : (s'.fileMeta f).size = n → p < n) :
    written f p = none := by
  rw [record, Option.or_eq_none_iff] at unwritten
  have uncut : s.cuts e s' f p = false := by
    simp only [cuts, call, decide_true, Bool.true_and, Bool.and_eq_false_iff, decide_eq_false_iff_not]
    by_cases same : (s'.fileMeta f).size = n
    · exact .inr (Nat.not_le.mpr (before same))
    · exact .inl same
  rw [if_neg (by rw [uncut]; decide)] at unwritten
  exact unwritten.2

theorem written_of_record_other (call : s.ftruncateCall e.op = some (f, n)) {g : FilePtr} (other : g ≠ f)
    (unwritten : s.record e s' written g p = none) : written g p = none := by
  rw [record, Option.or_eq_none_iff] at unwritten
  have uncut : s.cuts e s' g p = false := by simp [cuts, call, other.symm]
  rw [if_neg (by rw [uncut]; decide)] at unwritten
  exact unwritten.2

/-- A call whose growth finds zeros keeps blank files blank. -/
theorem Blank.effect (blank : s.Blank written) (gaps : s.BlankGaps e) (effect : Effect s e s') :
    s'.Blank (s.record e s' written) := by
  cases effect with
  | kept calm idle carries =>
    have same : s.record e s' written = written := by
      funext f p
      simp [record, idle f p, cuts, calm]
    rw [same]
    exact blank.carries carries
  | @truncated f n t u _ r call idle before same room apart recut behind =>
    have size : t.fileMeta f = s.fileMeta f := same.fileMeta
    refine blank.truncated before recut behind (fun g other p => written_of_record_other call other)
      (fun p _ _ before unwritten => written_of_record call unwritten before) fun done p low high _ => ?_
    rw [same.gapByte]
    rw [size] at low
    exact gaps f n call (room (by omega) done) p low high (apart done p)
  | @wrote f offset len buffer t _ filled ranged known inside grown overwritten =>
    have stored (p : Nat) (low : offset ≤ p) (high : p < offset + len) :
        s.record e s' written f p ≠ none := by
      rw [record, filled f p, if_pos ⟨rfl, low, high⟩]
      simp
    have grownBlank : t.Blank (s.record e s' written) := by
      rcases grown with ⟨calm, rfl⟩ | ⟨n, call, room, recut⟩
      · intro g bound reached p short unwritten
        rw [record, Option.or_eq_none_iff] at unwritten
        have forgets : t.cuts e s' g p = false := by simp [cuts, calm]
        rw [if_neg (by rw [forgets]; decide)] at unwritten
        exact blank g bound reached p short unwritten.2
      · refine blank.truncated (.refl s) recut (.refl t) (fun g other p => written_of_record_other call other)
          (fun p _ _ before unwritten => ?_) fun _ p low high unwritten => ?_
        · exact written_of_record call unwritten fun same => before (overwritten.size f ▸ same)
        · refine gaps f n call room p low high (Bool.eq_false_iff.mpr fun covered => ?_)
          obtain ⟨from_, until_⟩ := (ranged p).mp covered
          exact stored p from_ until_ unwritten
    exact grownBlank.overwritten overwritten stored

end Steps

section Run
variable [Crc32] {x : FileSystem × LastWrites} {s' : FileSystem} {f : FilePtr} {fd len : Nat} {offset : Int}
  {buffer back : Nat → UInt8} {r : Int}

theorem BlankRun.reachable (run : BlankRun x) : Reachable NarrowCall x.1 :=
  (Transition.Recording.reaches run).mono fun _ _ guard => ⟨guard.1, guard.2.1⟩

theorem BlankRun.blank (run : BlankRun x) : x.1.Blank x.2 := by
  refine Transition.Reaches.reached_invariant run (fun x => x.1.Blank x.2) ?_ ?_
  · rintro ⟨s, w⟩ ⟨fresh, rfl⟩
    obtain ⟨d, env, attempts, rfl, large⟩ := fresh.eq_mounted
    exact fun f bound => absurd bound (Nat.not_lt_zero f)
  · rintro ⟨s, w⟩ e ⟨s', w'⟩ before blank ⟨ok, narrow, gaps⟩ ⟨step, recorded⟩
    obtain ⟨lost, coherent⟩ := (BlankRun.reachable before).coherent
    obtain ⟨r, result⟩ := step.call
    rw [show w' = s.record e s' w from recorded]
    exact blank.effect gaps (call_effect coherent ok narrow result)

/-- Decides whether a growth of fewer than `limit` bytes finds zeros. -/
def findsZeros (limit : Nat) (s : FileSystem) (e : Event) : Bool :=
  match s.ftruncateCall e.op with
  | none => true
  | some (f, n) => decide (n ≤ limit) &&
    decide (∀ p < limit, (s.fileMeta f).size ≤ p → p < n → covers e.op p = false → s.gapByte e.env f n p = 0)

omit [Crc32] in
theorem findsZeros_sound {limit : Nat} {s : FileSystem} {e : Event} (passed : s.findsZeros limit e = true) :
    s.BlankGaps e := by
  intro f n call _ p low high uncovered
  simp only [findsZeros, call, Bool.and_eq_true, decide_eq_true_eq] at passed
  exact passed.2 p (by omega) low high uncovered

end Run

end BlockFs.FileSystem
