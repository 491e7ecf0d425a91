import Mathlib.Data.List.Basic
import Mathlib.Logic.Function.Basic
import Mathlib.Tactic.Common

/-!
# Sessions that defer their writes

A store keeps values under their keys, and a `Session` over it keeps the writes that are still to be
executed and the values it tracks. Saving and removing defer a write, `flush` executes what is
pending, and evicting a value (`Evicts`) drops the pending writes of the value from the session.

`LeavesAlone` is a frame condition: a step that is about other values makes a value neither appear in
the store nor disappear from it, and does not start to track it. Every operation at another key has
it (`leavesAlone_save` and the lemmas after it), and steps compose (`LeavesAlone.trans`). A value
saved and then evicted is absent for good (`absent_of_save_evict`), one that is flushed in between is
present for good (`present_of_save_flush_evict`).
-/

set_option autoImplicit false
set_option relaxedAutoImplicit false

namespace SharpArch.Foundation.DeferredSession

variable {Key Value : Type*}

/-! ### Stores and writes -/

/-- The values of a store, each under its own key. -/
structure Contents (keyOf : Value → Key) where
  find : Key → Option Value
  keyOf_eq : ∀ key value, find key = some value → keyOf value = key

/-- A store without values. -/
def Contents.empty (keyOf : Value → Key) : Contents keyOf where
  find _ := none
  keyOf_eq _ _ := nofun

/-- A write to a store. -/
inductive Write (Key Value : Type*)
  | put (value : Value)
  | remove (key : Key)
  deriving DecidableEq

/-- The key written at. -/
def Write.key (keyOf : Value → Key) : Write Key Value → Key
  | .put value => keyOf value
  | .remove key => key

/-- What is found at the key afterwards. -/
def Write.result : Write Key Value → Option Value
  | .put value => some value
  | .remove _ => none

variable [DecidableEq Key] {keyOf : Value → Key}

namespace Contents

/-- The store after a write. -/
def execute (contents : Contents keyOf) (write : Write Key Value) : Contents keyOf where
  find := Function.update contents.find (write.key keyOf) write.result
  keyOf_eq := by
    intro key value hfind
    by_cases hkey : key = write.key keyOf
    · subst hkey
      rw [Function.update_self] at hfind
      cases write with
      | put other =>
        obtain rfl : other = value := Option.some.inj hfind
        rfl
      | remove key => exact absurd hfind nofun
    · rw [Function.update_of_ne hkey] at hfind
      exact contents.keyOf_eq key value hfind

/-- The store after writes, executed in order. -/
def executeAll (contents : Contents keyOf) (writes : List (Write Key Value)) : Contents keyOf :=
  writes.foldl execute contents

variable (contents : Contents keyOf)

@[simp] theorem executeAll_nil : contents.executeAll [] = contents := rfl

theorem executeAll_cons (write : Write Key Value) (rest : List (Write Key Value)) :
    contents.executeAll (write :: rest) = (contents.execute write).executeAll rest := rfl

theorem executeAll_append (first second : List (Write Key Value)) :
    contents.executeAll (first ++ second) = (contents.executeAll first).executeAll second :=
  List.foldl_append

@[simp] theorem find_execute_self (write : Write Key Value) :
    (contents.execute write).find (write.key keyOf) = write.result :=
  Function.update_self _ _ _

variable {contents}

theorem find_execute_of_ne {write : Write Key Value} {key : Key} (hne : write.key keyOf ≠ key) :
    (contents.execute write).find key = contents.find key :=
  Function.update_of_ne hne.symm _ _

/-- Writes at other keys leave what is found at a key. -/
theorem find_executeAll_of_ne {writes : List (Write Key Value)} {key : Key}
    (hne : ∀ write ∈ writes, write.key keyOf ≠ key) :
    (contents.executeAll writes).find key = contents.find key := by
  induction writes generalizing contents with
  | nil => rfl
  | cons write rest ih =>
    obtain ⟨hwrite, hrest⟩ := List.forall_mem_cons.mp hne
    rw [executeAll_cons, ih hrest, find_execute_of_ne hwrite]

/-- Nothing is found at a key where nothing was found and nothing is put. -/
theorem find_executeAll_eq_none {writes : List (Write Key Value)} {key : Key}
    (hfind : contents.find key = none)
    (hput : ∀ value, Write.put value ∈ writes → keyOf value ≠ key) :
    (contents.executeAll writes).find key = none := by
  induction writes generalizing contents with
  | nil => exact hfind
  | cons write rest ih =>
    rw [executeAll_cons]
    refine ih ?_ fun value hmem ↦ hput value (List.mem_cons_of_mem _ hmem)
    by_cases hkey : write.key keyOf = key
    · subst hkey
      rw [find_execute_self]
      cases write with
      | put value => exact absurd rfl (hput value List.mem_cons_self)
      | remove key => rfl
    · rw [find_execute_of_ne hkey, hfind]

end Contents

/-! ### Sessions -/

/-- A store, the writes still to be executed on it, oldest first, and the values tracked. -/
structure Session (keyOf : Value → Key) where
  stored : Contents keyOf
  pending : List (Write Key Value)
  tracked : Value → Bool

namespace Session

section Operations

variable [DecidableEq Value]

/-- A value is tracked and will be put. -/
def save (value : Value) (session : Session keyOf) : Session keyOf :=
  { session with
    pending := session.pending ++ [.put value]
    tracked := Function.update session.tracked value true }

omit [DecidableEq Key] [DecidableEq Value] in
/-- What is stored at a key will be removed. -/
def remove (key : Key) (session : Session keyOf) : Session keyOf :=
  { session with pending := session.pending ++ [.remove key] }

omit [DecidableEq Key] [DecidableEq Value] in
/-- Values that were found are tracked. -/
def track (found : Value → Bool) (session : Session keyOf) : Session keyOf :=
  { session with tracked := fun value ↦ session.tracked value || found value }

/-- The pending writes are executed. What they remove is not tracked any more. -/
def flush (session : Session keyOf) : Session keyOf where
  stored := session.stored.executeAll session.pending
  pending := []
  tracked := fun value ↦
    session.tracked value && decide (.remove (keyOf value) ∉ session.pending)

end Operations

/-- A step that drops a value with its pending put from a session. It may drop more of what is pending,
but nothing at other keys. -/
structure Evicts (value : Value) (before after : Session keyOf) : Prop where
  stored_eq : after.stored = before.stored
  pending_subset : ∀ write ∈ after.pending, write ∈ before.pending
  put_not_pending : .put value ∉ after.pending
  other_pending : ∀ write ∈ before.pending, write.key keyOf ≠ keyOf value → write ∈ after.pending
  not_tracked : after.tracked value = false
  other_tracked : ∀ other, other ≠ value → after.tracked other = before.tracked other

/-! ### Absent and present values -/

/-- Nothing is stored at the key, and no pending write puts anything there. -/
structure Absent (key : Key) (session : Session keyOf) : Prop where
  not_stored : session.stored.find key = none
  not_pending : ∀ value, .put value ∈ session.pending → keyOf value ≠ key

/-- The value is stored, and no pending write is at its key. -/
structure Present (value : Value) (session : Session keyOf) : Prop where
  stored : session.stored.find (keyOf value) = some value
  not_pending : ∀ write ∈ session.pending, write.key keyOf ≠ keyOf value

/-- A value that neither the store nor the session knows of. -/
structure IsNew (value : Value) (session : Session keyOf) : Prop where
  absent : session.Absent (keyOf value)
  not_tracked : session.tracked value = false

/-- The value is stored and the session does not track it. -/
structure StoredUntracked (value : Value) (session : Session keyOf) : Prop where
  stored : session.stored.find (keyOf value) = some value
  not_tracked : session.tracked value = false

/-- A step that is about other values than this one. -/
structure LeavesAlone (value : Value) (before after : Session keyOf) : Prop where
  absent : before.Absent (keyOf value) → after.Absent (keyOf value)
  present : before.Present value → after.Present value
  not_tracked : before.tracked value = false → after.tracked value = false

variable {value other : Value} {session before middle after : Session keyOf}

omit [DecidableEq Key] in
theorem LeavesAlone.refl (session : Session keyOf) : LeavesAlone value session session where
  absent := id
  present := id
  not_tracked := id

omit [DecidableEq Key] in
theorem LeavesAlone.trans (hfirst : LeavesAlone value before middle)
    (hsecond : LeavesAlone value middle after) : LeavesAlone value before after where
  absent := fun h ↦ hsecond.absent (hfirst.absent h)
  present := fun h ↦ hsecond.present (hfirst.present h)
  not_tracked := fun h ↦ hsecond.not_tracked (hfirst.not_tracked h)

omit [DecidableEq Key] in
/-- Saving a value with another key leaves a value alone. -/
theorem leavesAlone_save [DecidableEq Value] (hne : keyOf other ≠ keyOf value) :
    LeavesAlone value session (session.save other) where
  absent := by
    intro habsent
    refine ⟨habsent.not_stored, fun put hmem ↦ ?_⟩
    rcases List.mem_append.mp hmem with hold | hlast
    · exact habsent.not_pending put hold
    · obtain rfl : put = other := by simpa using hlast
      exact hne
  present := by
    intro hpresent
    refine ⟨hpresent.stored, List.forall_mem_append.mpr ⟨hpresent.not_pending, ?_⟩⟩
    exact List.forall_mem_singleton.mpr hne
  not_tracked := by
    intro htracked
    have hother : value ≠ other := fun hsame ↦ hne (congrArg keyOf hsame.symm)
    exact (Function.update_of_ne hother _ _).trans htracked

omit [DecidableEq Key] in
/-- So does a removal at another key. -/
theorem leavesAlone_remove {key : Key} (hne : key ≠ keyOf value) :
    LeavesAlone value session (session.remove key) where
  absent := by
    intro habsent
    refine ⟨habsent.not_stored, fun put hmem ↦ ?_⟩
    rcases List.mem_append.mp hmem with hold | hlast
    · exact habsent.not_pending put hold
    · exact absurd hlast (by simp)
  present := by
    intro hpresent
    refine ⟨hpresent.stored, List.forall_mem_append.mpr ⟨hpresent.not_pending, ?_⟩⟩
    exact List.forall_mem_singleton.mpr hne
  not_tracked := id

omit [DecidableEq Key] in
/-- So does tracking what was found, when the value is not found. -/
theorem leavesAlone_track {found : Value → Bool} (hfound : found value = false) :
    LeavesAlone value session (session.track found) where
  absent := fun h ↦ ⟨h.not_stored, h.not_pending⟩
  present := fun h ↦ ⟨h.stored, h.not_pending⟩
  not_tracked := by
    intro htracked
    simp only [track, htracked, hfound, Bool.or_false]

omit [DecidableEq Key] in
/-- So does evicting another value. -/
theorem Evicts.leavesAlone (hevicts : Evicts other before after) (hne : value ≠ other) :
    LeavesAlone value before after where
  absent := by
    intro habsent
    refine ⟨hevicts.stored_eq ▸ habsent.not_stored, fun put hmem ↦ ?_⟩
    exact habsent.not_pending put (hevicts.pending_subset _ hmem)
  present := by
    intro hpresent
    refine ⟨hevicts.stored_eq ▸ hpresent.stored, fun write hmem ↦ ?_⟩
    exact hpresent.not_pending write (hevicts.pending_subset _ hmem)
  not_tracked := by
    intro htracked
    rw [hevicts.other_tracked value hne, htracked]

/-- A flush leaves every value alone. -/
theorem leavesAlone_flush [DecidableEq Value] : LeavesAlone value session session.flush where
  absent := fun h ↦
    ⟨Contents.find_executeAll_eq_none h.not_stored h.not_pending, fun _ h ↦ absurd h List.not_mem_nil⟩
  present := fun h ↦
    ⟨(Contents.find_executeAll_of_ne h.not_pending).trans h.stored,
      fun _ h ↦ absurd h List.not_mem_nil⟩
  not_tracked := by
    intro htracked
    simp only [flush, htracked, Bool.false_and]

/-! ### Removing -/

/-- A flush of nothing leaves the store. -/
theorem stored_flush_of_nil [DecidableEq Value] (hpending : session.pending = []) :
    session.flush.stored = session.stored := by
  simp only [flush, hpending, Contents.executeAll_nil]

/-- A removal that is flushed leaves nothing at its key and what is stored at any other. -/
theorem find_flush_of_remove [DecidableEq Value] {key : Key}
    (hpending : session.pending = [.remove key]) :
    session.flush.stored.find key = none ∧
      ∀ place, place ≠ key → session.flush.stored.find place = session.stored.find place := by
  have hstored : session.flush.stored = session.stored.execute (.remove key) := by
    simp only [flush, hpending, Contents.executeAll_cons, Contents.executeAll_nil]
  rw [hstored]
  refine ⟨Contents.find_execute_self session.stored (.remove key), fun place hne ↦ ?_⟩
  exact Contents.find_execute_of_ne hne.symm

/-! ### Saving and evicting -/

omit [DecidableEq Key] in
/-- A new value that is saved and evicted is absent: nothing is left of its put. -/
theorem absent_of_save_evict [DecidableEq Value] (hnew : session.IsNew value)
    (hevicts : Evicts value (session.save value) after) : after.Absent (keyOf value) := by
  refine ⟨hevicts.stored_eq ▸ hnew.absent.not_stored, fun put hmem ↦ ?_⟩
  rcases List.mem_append.mp (hevicts.pending_subset _ hmem) with hold | hlast
  · exact hnew.absent.not_pending put hold
  · obtain rfl : put = value := by simpa using hlast
    exact absurd hmem hevicts.put_not_pending

/-- A value that is saved, flushed and evicted is present and not tracked. -/
theorem present_of_save_flush_evict [DecidableEq Value]
    (hevicts : Evicts value (session.save value).flush after) :
    after.Present value ∧ after.tracked value = false := by
  refine ⟨⟨?_, fun write hmem ↦ ?_⟩, hevicts.not_tracked⟩
  · rw [hevicts.stored_eq, flush, save, Contents.executeAll_append]
    exact Contents.find_execute_self _ (.put value)
  · exact absurd (hevicts.pending_subset write hmem) List.not_mem_nil

end Session

end SharpArch.Foundation.DeferredSession
