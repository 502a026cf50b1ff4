import Mathlib.Data.Set.Insert
import Mathlib.Logic.Function.Basic

/-!
A table that is kept in memory and written to a device page by page: which of its slots the device
has yet to be told about, and which pages make that good.
-/

namespace WriteBack

variable {ι α β : Type*} [DecidableEq ι] {good : α → Prop} {view : α → β} {dirty dirty' : Set ι}
  {memory device : ι → α}

/-- Off the dirty slots both copies are good, and what is to be read back is the same in both. -/
structure Synced (good : α → Prop) (view : α → β) (dirty : Set ι) (memory device : ι → α) : Prop where
  memory_good : ∀ i ∉ dirty, good (memory i)
  device_good : ∀ i ∉ dirty, good (device i)
  same : ∀ i ∉ dirty, view (device i) = view (memory i)

/-- The device after the slots of a page have been written. -/
def flush (page : Set ι) [DecidablePred (· ∈ page)] (memory device : ι → α) (i : ι) : α :=
  if i ∈ page then memory i else device i

omit [DecidableEq ι] in
theorem Synced.mono (synced : Synced good view dirty memory device) (more : dirty ⊆ dirty') :
    Synced good view dirty' memory device where
  memory_good i clean := synced.memory_good i fun member => clean (more member)
  device_good i clean := synced.device_good i fun member => clean (more member)
  same i clean := synced.same i fun member => clean (more member)

/-- A slot that is changed in memory is dirty. -/
theorem Synced.touch (synced : Synced good view dirty memory device) (i : ι) (a : α) :
    Synced good view (insert i dirty) (Function.update memory i a) device := by
  have before {j : ι} (clean : j ∉ insert i dirty) : Function.update memory i a j = memory j ∧ j ∉ dirty := by
    obtain ⟨apart, clean⟩ := not_or.mp clean
    exact ⟨Function.update_of_ne apart a memory, clean⟩
  constructor
  · intro j clean
    rw [(before clean).1]
    exact synced.memory_good j (before clean).2
  · intro j clean
    exact synced.device_good j (before clean).2
  · intro j clean
    rw [(before clean).1]
    exact synced.same j (before clean).2

/-- A change that is not read back leaves a slot as clean as it was. -/
theorem Synced.retouch (synced : Synced good view dirty memory device) {i : ι} {a : α} (fine : good a)
    (unseen : view a = view (memory i)) : Synced good view dirty (Function.update memory i a) device := by
  constructor
  · intro j clean
    by_cases here : j = i
    · subst here
      rw [Function.update_self]
      exact fine
    · rw [Function.update_of_ne here]
      exact synced.memory_good j clean
  · exact synced.device_good
  · intro j clean
    by_cases here : j = i
    · subst here
      rw [Function.update_self, unseen]
      exact synced.same j clean
    · rw [Function.update_of_ne here]
      exact synced.same j clean

omit [DecidableEq ι] in
/-- A write of a page makes no slot dirty. -/
theorem Synced.flush (synced : Synced good view dirty memory device) (page : Set ι)
    [DecidablePred (· ∈ page)] : Synced good view dirty memory (flush page memory device) := by
  refine ⟨synced.memory_good, fun i clean => ?_, fun i clean => ?_⟩
  · by_cases written : i ∈ page
    · rw [WriteBack.flush, if_pos written]
      exact synced.memory_good i clean
    · rw [WriteBack.flush, if_neg written]
      exact synced.device_good i clean
  · by_cases written : i ∈ page
    · rw [WriteBack.flush, if_pos written]
    · rw [WriteBack.flush, if_neg written]
      exact synced.same i clean

omit [DecidableEq ι] in
/-- A good slot that the device holds is clean. -/
theorem Synced.clean (synced : Synced good view dirty memory device) {i : ι} (fine : good (memory i))
    (held : device i = memory i) : Synced good view (dirty \ {i}) memory device := by
  have other {j : ι} (apart : j ≠ i) (clean : j ∉ dirty \ {i}) : j ∉ dirty := fun member => clean ⟨member, apart⟩
  refine ⟨fun j clean => ?_, fun j clean => ?_, fun j clean => ?_⟩
  · by_cases here : j = i
    · rw [here]
      exact fine
    · exact synced.memory_good j (other here clean)
  · by_cases here : j = i
    · rw [here, held]
      exact fine
    · exact synced.device_good j (other here clean)
  · by_cases here : j = i
    · rw [here, held]
    · exact synced.same j (other here clean)

/-- A slot that is put in order and written with its page is clean. -/
theorem Synced.write (synced : Synced good view dirty memory device) {page : Set ι}
    [DecidablePred (· ∈ page)] {i : ι} {a : α} (inside : i ∈ page) (fine : good a) :
    Synced good view (dirty \ {i}) (Function.update memory i a)
      (WriteBack.flush page (Function.update memory i a) device) := by
  have written := (synced.touch i a).flush page
  have held : WriteBack.flush page (Function.update memory i a) device i = Function.update memory i a i := by
    rw [WriteBack.flush, if_pos inside]
  have cleaned := written.clean (i := i) (by rwa [Function.update_self]) held
  refine cleaned.mono ?_
  rintro j ⟨member, apart⟩
  exact ⟨member.resolve_left apart, apart⟩

end WriteBack
