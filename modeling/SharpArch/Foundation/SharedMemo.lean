import Mathlib.Algebra.Order.Group.Nat
import Mathlib.Data.List.Dedup
import SharpArch.Foundation.Run

/-!
# A table of made values, shared by callers

Callers share a table without a lock. Each looks its key up, once or more; a caller that has not found
it has its own factory make a value, outside of the table, and then adds the value unless the key has
come to be there meanwhile. It is answered with what the table holds. At any time the table may be
cleared. A `Memo` is the table and where each caller is, together with what has been answered, and a
list of `Event`s is an interleaving.

`Consistent` is what all of them keep: the table is what has been answered since it was cleared, and
nothing of this was answered before. So callers of one key are answered with one and the same value from
one clearing to the next (`Consistent.answers_agree`), which one of them has made, and the table has an
entry for each key answered (`Consistent.length_entries`).
-/

set_option autoImplicit false
set_option relaxedAutoImplicit false

namespace SharpArch.Foundation.SharedMemo

open Run

variable {Caller Key Content Error : Type*}

/-- A value that a factory has made. No two made values have the same number. -/
structure Made (Content : Type*) where
  number : ℕ
  content : Content
  deriving DecidableEq, Repr

/-- What a caller asks for: its key, how often it looks the key up again before it has its factory make
a value, and what the factory does. -/
structure Call (Key Content Error : Type*) where
  key : Key
  again : ℕ
  factory : Except Error Content

/-- What a caller does next. -/
inductive Progress (Content Error : Type*)
  | looks (again : ℕ)
  | makes
  | adds (value : Made Content)
  | ended (answer : Except Error (Made Content))

/-- The entries of the table, how many values have been made, where each caller is, and what has been
answered: since the table was cleared, and before. -/
structure Memo (Caller Key Content Error : Type*) where
  entries : List (Key × Made Content)
  made : ℕ
  progress : Caller → Progress Content Error
  answered : List (Key × Made Content)
  answeredBefore : List (Key × Made Content)

/-- A caller makes its next move, or the table is cleared. -/
inductive Event (Caller : Type*)
  | move (caller : Caller)
  | clear

namespace Memo

/-- An empty table before the first call. -/
def start (calls : Caller → Call Key Content Error) : Memo Caller Key Content Error where
  entries := []
  made := 0
  progress caller := .looks (calls caller).again
  answered := []
  answeredBefore := []

def clear (memo : Memo Caller Key Content Error) : Memo Caller Key Content Error :=
  { memo with
    entries := []
    answered := []
    answeredBefore := memo.answered ++ memo.answeredBefore }

variable [DecidableEq Caller] [DecidableEq Key]

def goTo (caller : Caller) (next : Progress Content Error) (memo : Memo Caller Key Content Error) :
    Memo Caller Key Content Error :=
  { memo with progress := Function.update memo.progress caller next }

/-- A caller is answered with a value. -/
def answer (caller : Caller) (key : Key) (value : Made Content)
    (memo : Memo Caller Key Content Error) : Memo Caller Key Content Error :=
  { memo.goTo caller (.ended (.ok value)) with answered := (key, value) :: memo.answered }

/-- The next move of a caller. -/
def move (calls : Caller → Call Key Content Error) (caller : Caller)
    (memo : Memo Caller Key Content Error) : Memo Caller Key Content Error :=
  let key := (calls caller).key
  match memo.progress caller with
  | .looks again =>
    match memo.entries.lookup key, again with
    | some value, _ => memo.answer caller key value
    | none, more + 1 => memo.goTo caller (.looks more)
    | none, 0 => memo.goTo caller .makes
  | .makes =>
    match (calls caller).factory with
    | .error error => memo.goTo caller (.ended (.error error))
    | .ok content =>
      { memo.goTo caller (.adds { number := memo.made, content := content }) with
        made := memo.made + 1 }
  | .adds value =>
    match memo.entries.lookup key with
    | some kept => memo.answer caller key kept
    | none => { memo.answer caller key value with entries := (key, value) :: memo.entries }
  | .ended _ => memo

def step (calls : Caller → Call Key Content Error) (memo : Memo Caller Key Content Error) :
    Event Caller → Memo Caller Key Content Error
  | .move caller => memo.move calls caller
  | .clear => memo.clear

end Memo

/-! ### What holds in every interleaving -/

/-- The table is what has been answered since it was cleared, every value answered or about to be added
was made for its key and by the factory of one of its callers, and no value is answered both before and
after a clearing. -/
structure Consistent (calls : Caller → Call Key Content Error)
    (memo : Memo Caller Key Content Error) : Prop where
  keys_nodup : (memo.entries.map Prod.fst).Nodup
  mem_entries : ∀ entry, entry ∈ memo.entries ↔ entry ∈ memo.answered
  number_lt : ∀ entry ∈ memo.answered ++ memo.answeredBefore, entry.2.number < memo.made
  not_before : ∀ entry ∈ memo.answered, ∀ earlier ∈ memo.answeredBefore,
    entry.2.number ≠ earlier.2.number
  made_for : ∀ entry ∈ memo.answered ++ memo.answeredBefore,
    ∃ caller, (calls caller).key = entry.1 ∧ (calls caller).factory = .ok entry.2.content
  adds_lt : ∀ caller value, memo.progress caller = .adds value → value.number < memo.made
  adds_new : ∀ caller value, memo.progress caller = .adds value →
    ∀ entry ∈ memo.answered ++ memo.answeredBefore, entry.2.number ≠ value.number
  adds_own : ∀ caller value, memo.progress caller = .adds value →
    (calls caller).factory = .ok value.content
  adds_inj : ∀ caller other value otherValue, memo.progress caller = .adds value →
    memo.progress other = .adds otherValue → value.number = otherValue.number → caller = other
  ended_ok : ∀ caller value, memo.progress caller = .ended (.ok value) →
    ((calls caller).key, value) ∈ memo.answered ++ memo.answeredBefore
  ended_error : ∀ caller error, memo.progress caller = .ended (.error error) →
    (calls caller).factory = .error error

variable {calls : Caller → Call Key Content Error} {memo : Memo Caller Key Content Error}

theorem consistent_start (calls : Caller → Call Key Content Error) :
    Consistent calls (Memo.start calls) := by
  refine ⟨List.nodup_nil, ?_, ?_, ?_, ?_, ?_, ?_, ?_, ?_, ?_, ?_⟩ <;>
    simp [Memo.start]

theorem Consistent.clear (hmemo : Consistent calls memo) : Consistent calls memo.clear where
  keys_nodup := List.nodup_nil
  mem_entries := by simp [Memo.clear]
  number_lt := hmemo.number_lt
  not_before := fun _ h ↦ absurd h List.not_mem_nil
  made_for := hmemo.made_for
  adds_lt := hmemo.adds_lt
  adds_new := hmemo.adds_new
  adds_own := hmemo.adds_own
  adds_inj := hmemo.adds_inj
  ended_ok := hmemo.ended_ok
  ended_error := hmemo.ended_error

section Moves

variable [DecidableEq Caller]

/-- Where a caller is after another one, or the same one, has gone on. -/
theorem progress_goTo {caller other : Caller} {next found : Progress Content Error} :
    (memo.goTo caller next).progress other = found ↔
      other = caller ∧ next = found ∨ other ≠ caller ∧ memo.progress other = found := by
  by_cases hsame : other = caller
  · subst hsame
    simp [Memo.goTo]
  · simp [Memo.goTo, hsame]

/-- A caller may go on to look again or to have a value made. -/
theorem Consistent.goTo {caller : Caller} {next : Progress Content Error}
    (hmemo : Consistent calls memo) (hadds : ∀ value, next ≠ .adds value)
    (hok : ∀ value, next ≠ .ended (.ok value))
    (herror : ∀ error, next = .ended (.error error) → (calls caller).factory = .error error) :
    Consistent calls (memo.goTo caller next) := by
  have hkept : ∀ other value, (memo.goTo caller next).progress other = .adds value →
      memo.progress other = .adds value := by
    intro other value hother
    rcases progress_goTo.mp hother with ⟨-, hnext⟩ | ⟨-, hother⟩
    · exact absurd hnext (hadds value)
    · exact hother
  exact {
    keys_nodup := hmemo.keys_nodup
    mem_entries := hmemo.mem_entries
    number_lt := hmemo.number_lt
    not_before := hmemo.not_before
    made_for := hmemo.made_for
    adds_lt := fun other value hother ↦ hmemo.adds_lt other value (hkept other value hother)
    adds_new := fun other value hother ↦ hmemo.adds_new other value (hkept other value hother)
    adds_own := fun other value hother ↦ hmemo.adds_own other value (hkept other value hother)
    adds_inj := fun first second value otherValue hfirst hsecond ↦
      hmemo.adds_inj first second value otherValue (hkept _ _ hfirst) (hkept _ _ hsecond)
    ended_ok := by
      intro other value hother
      rcases progress_goTo.mp hother with ⟨-, hnext⟩ | ⟨-, hother⟩
      · exact absurd hnext (hok value)
      · exact hmemo.ended_ok other value hother
    ended_error := by
      intro other error hother
      rcases progress_goTo.mp hother with ⟨rfl, hnext⟩ | ⟨-, hother⟩
      · exact herror error hnext
      · exact hmemo.ended_error other error hother }

/-- A caller may be answered with the entry of its key. -/
theorem Consistent.answer {caller : Caller} {value : Made Content} (hmemo : Consistent calls memo)
    (hentry : ((calls caller).key, value) ∈ memo.entries) :
    Consistent calls (memo.answer caller (calls caller).key value) := by
  have hanswered := (hmemo.mem_entries _).mp hentry
  have hmem : ∀ entry, entry ∈ ((calls caller).key, value) :: memo.answered ↔
      entry ∈ memo.answered := by
    intro entry
    rw [List.mem_cons, or_iff_right_of_imp]
    rintro rfl
    exact hanswered
  have hall : ∀ entry,
      entry ∈ (((calls caller).key, value) :: memo.answered) ++ memo.answeredBefore ↔
        entry ∈ memo.answered ++ memo.answeredBefore := by
    intro entry
    rw [List.mem_append, hmem, List.mem_append]
  have hkept : ∀ other held,
      (memo.answer caller (calls caller).key value).progress other = .adds held →
        memo.progress other = .adds held := by
    intro other held hother
    rcases progress_goTo.mp hother with ⟨-, hnext⟩ | ⟨-, hother⟩
    · exact absurd hnext nofun
    · exact hother
  exact {
    keys_nodup := hmemo.keys_nodup
    mem_entries := fun entry ↦ (hmemo.mem_entries entry).trans (hmem entry).symm
    number_lt := fun entry h ↦ hmemo.number_lt entry ((hall entry).mp h)
    not_before := fun entry h ↦ hmemo.not_before entry ((hmem entry).mp h)
    made_for := fun entry h ↦ hmemo.made_for entry ((hall entry).mp h)
    adds_lt := fun other held hother ↦ hmemo.adds_lt other held (hkept other held hother)
    adds_new := fun other held hother entry h ↦
      hmemo.adds_new other held (hkept other held hother) entry ((hall entry).mp h)
    adds_own := fun other held hother ↦ hmemo.adds_own other held (hkept other held hother)
    adds_inj := fun first second held otherHeld hfirst hsecond ↦
      hmemo.adds_inj first second held otherHeld (hkept _ _ hfirst) (hkept _ _ hsecond)
    ended_ok := by
      intro other held hother
      rcases progress_goTo.mp hother with ⟨rfl, hnext⟩ | ⟨-, hother⟩
      · obtain rfl : value = held := by simpa using hnext
        exact List.mem_append_left _ List.mem_cons_self
      · exact (hall _).mpr (hmemo.ended_ok other held hother)
    ended_error := by
      intro other error hother
      rcases progress_goTo.mp hother with ⟨-, hnext⟩ | ⟨-, hother⟩
      · exact absurd hnext (by simp)
      · exact hmemo.ended_error other error hother }

/-- The factory of a caller may make a value. -/
theorem Consistent.makes {caller : Caller} {content : Content} (hmemo : Consistent calls memo)
    (hfactory : (calls caller).factory = .ok content) :
    Consistent calls
      { memo.goTo caller (.adds { number := memo.made, content := content }) with
        made := memo.made + 1 } where
  keys_nodup := hmemo.keys_nodup
  mem_entries := hmemo.mem_entries
  number_lt := fun entry h ↦ Nat.lt_succ_of_lt (hmemo.number_lt entry h)
  not_before := hmemo.not_before
  made_for := hmemo.made_for
  adds_lt := by
    intro other value hother
    rcases progress_goTo.mp hother with ⟨-, hnext⟩ | ⟨-, hother⟩
    · obtain rfl := Progress.adds.inj hnext
      exact Nat.lt_succ_self memo.made
    · exact Nat.lt_succ_of_lt (hmemo.adds_lt other value hother)
  adds_new := by
    intro other value hother entry hentry
    rcases progress_goTo.mp hother with ⟨-, hnext⟩ | ⟨-, hother⟩
    · obtain rfl := Progress.adds.inj hnext
      exact Nat.ne_of_lt (hmemo.number_lt entry hentry)
    · exact hmemo.adds_new other value hother entry hentry
  adds_own := by
    intro other value hother
    rcases progress_goTo.mp hother with ⟨rfl, hnext⟩ | ⟨-, hother⟩
    · obtain rfl := Progress.adds.inj hnext
      exact hfactory
    · exact hmemo.adds_own other value hother
  adds_inj := by
    intro first second value otherValue hfirst hsecond hnumber
    rcases progress_goTo.mp hfirst with ⟨hcaller, hmade⟩ | ⟨-, hadds⟩ <;>
      rcases progress_goTo.mp hsecond with ⟨hcaller', hmade'⟩ | ⟨-, hadds'⟩
    · exact hcaller.trans hcaller'.symm
    · obtain rfl := Progress.adds.inj hmade
      exact absurd hnumber.symm (Nat.ne_of_lt (hmemo.adds_lt second otherValue hadds'))
    · obtain rfl := Progress.adds.inj hmade'
      exact absurd hnumber (Nat.ne_of_lt (hmemo.adds_lt first value hadds))
    · exact hmemo.adds_inj first second value otherValue hadds hadds' hnumber
  ended_ok := by
    intro other value hother
    rcases progress_goTo.mp hother with ⟨-, hnext⟩ | ⟨-, hother⟩
    · exact absurd hnext nofun
    · exact hmemo.ended_ok other value hother
  ended_error := by
    intro other error hother
    rcases progress_goTo.mp hother with ⟨-, hnext⟩ | ⟨-, hother⟩
    · exact absurd hnext nofun
    · exact hmemo.ended_error other error hother

/-- A caller that finds no entry of its key may add its value. -/
theorem Consistent.adds {caller : Caller} {value : Made Content} (hmemo : Consistent calls memo)
    (hadds : memo.progress caller = .adds value)
    (hmissing : (calls caller).key ∉ memo.entries.map Prod.fst) :
    Consistent calls
      { memo.answer caller (calls caller).key value with
        entries := ((calls caller).key, value) :: memo.entries } := by
  have hkept : ∀ other held,
      (memo.answer caller (calls caller).key value).progress other = .adds held →
        other ≠ caller ∧ memo.progress other = .adds held := by
    intro other held hother
    rcases progress_goTo.mp hother with ⟨-, hnext⟩ | hother
    · exact absurd hnext nofun
    · exact hother
  exact {
    keys_nodup := List.nodup_cons.mpr ⟨hmissing, hmemo.keys_nodup⟩
    mem_entries := by
      intro entry
      show entry ∈ ((calls caller).key, value) :: memo.entries ↔
        entry ∈ ((calls caller).key, value) :: memo.answered
      rw [List.mem_cons, List.mem_cons, hmemo.mem_entries]
    number_lt := List.forall_mem_cons.mpr ⟨hmemo.adds_lt caller value hadds, hmemo.number_lt⟩
    not_before := by
      refine List.forall_mem_cons.mpr ⟨fun earlier hearlier ↦ ?_, hmemo.not_before⟩
      exact (hmemo.adds_new caller value hadds earlier (List.mem_append_right _ hearlier)).symm
    made_for := List.forall_mem_cons.mpr
      ⟨⟨caller, rfl, hmemo.adds_own caller value hadds⟩, hmemo.made_for⟩
    adds_lt := fun other held hother ↦ hmemo.adds_lt other held (hkept other held hother).2
    adds_new := by
      intro other held hother
      obtain ⟨hne, hother⟩ := hkept other held hother
      refine List.forall_mem_cons.mpr ⟨fun hnumber ↦ hne ?_, hmemo.adds_new other held hother⟩
      exact hmemo.adds_inj other caller held value hother hadds hnumber.symm
    adds_own := fun other held hother ↦ hmemo.adds_own other held (hkept other held hother).2
    adds_inj := fun first second held otherHeld hfirst hsecond ↦ hmemo.adds_inj first second held
      otherHeld (hkept _ _ hfirst).2 (hkept _ _ hsecond).2
    ended_ok := by
      intro other held hother
      rcases progress_goTo.mp hother with ⟨rfl, hnext⟩ | ⟨-, hother⟩
      · obtain rfl : value = held := by simpa using hnext
        exact List.mem_cons_self
      · exact List.mem_cons_of_mem _ (hmemo.ended_ok other held hother)
    ended_error := by
      intro other error hother
      rcases progress_goTo.mp hother with ⟨-, hnext⟩ | ⟨-, hother⟩
      · exact absurd hnext (by simp)
      · exact hmemo.ended_error other error hother }

variable [DecidableEq Key]

omit [DecidableEq Caller] in
theorem mem_of_lookup {key : Key} {value : Made Content}
    (hfound : memo.entries.lookup key = some value) : (key, value) ∈ memo.entries := by
  obtain ⟨earlier, later, hsplit, -⟩ := List.lookup_eq_some_iff.mp hfound
  rw [hsplit]
  exact List.mem_append_right _ List.mem_cons_self

omit [DecidableEq Caller] in
theorem not_mem_of_lookup {key : Key} (hmissing : memo.entries.lookup key = none) :
    key ∉ memo.entries.map Prod.fst := by
  intro hmem
  obtain ⟨entry, hentry, rfl⟩ := List.mem_map.mp hmem
  have hne := List.lookup_eq_none_iff.mp hmissing entry hentry
  exact absurd hne (by simp)

/-- A move of any caller keeps the table consistent. -/
theorem Consistent.move (hmemo : Consistent calls memo) (caller : Caller) :
    Consistent calls (memo.move calls caller) := by
  cases hprogress : memo.progress caller with
  | looks again =>
    cases hfound : memo.entries.lookup (calls caller).key with
    | some value =>
      simp only [Memo.move, hprogress, hfound]
      exact hmemo.answer (mem_of_lookup hfound)
    | none =>
      cases again with
      | zero =>
        simp only [Memo.move, hprogress, hfound]
        exact hmemo.goTo (by simp) (by simp) (by simp)
      | succ more =>
        simp only [Memo.move, hprogress, hfound]
        exact hmemo.goTo (by simp) (by simp) (by simp)
  | makes =>
    cases hfactory : (calls caller).factory with
    | ok content =>
      simp only [Memo.move, hprogress, hfactory]
      exact hmemo.makes hfactory
    | error error =>
      simp only [Memo.move, hprogress, hfactory]
      refine hmemo.goTo (by simp) (by simp) fun thrown hthrown ↦ ?_
      obtain rfl : error = thrown := by simpa using hthrown
      exact hfactory
  | adds value =>
    cases hfound : memo.entries.lookup (calls caller).key with
    | some kept =>
      simp only [Memo.move, hprogress, hfound]
      exact hmemo.answer (mem_of_lookup hfound)
    | none =>
      simp only [Memo.move, hprogress, hfound]
      exact hmemo.adds hprogress (not_mem_of_lookup hfound)
  | ended answer =>
    simp only [Memo.move, hprogress]
    exact hmemo

/-- Every interleaving of the callers, with the table cleared at any time, keeps it consistent. -/
theorem consistent_run (calls : Caller → Call Key Content Error) (events : List (Event Caller)) :
    Consistent calls (run (Memo.step calls) (Memo.start calls) events) := by
  refine run_invariant (fun memo event hmemo ↦ ?_) (consistent_start calls) events
  cases event with
  | move caller => exact hmemo.move caller
  | clear => exact hmemo.clear

end Moves

/-! ### What the callers can rely on -/

/-- Since the table was cleared, all callers of a key have been answered with the same made value. -/
theorem Consistent.answers_agree (hmemo : Consistent calls memo) {key : Key}
    {value other : Made Content} (hvalue : (key, value) ∈ memo.answered)
    (hother : (key, other) ∈ memo.answered) : value = other := by
  have hsame := List.inj_on_of_nodup_map hmemo.keys_nodup ((hmemo.mem_entries _).mpr hvalue)
    ((hmemo.mem_entries _).mpr hother) rfl
  exact (Prod.mk.inj hsame).2

/-- The table has an entry for each key answered since it was cleared, and no others. -/
theorem Consistent.length_entries [DecidableEq Key] (hmemo : Consistent calls memo) :
    memo.entries.length = (memo.answered.map Prod.fst).dedup.length := by
  have hperm : (memo.entries.map Prod.fst).Perm (memo.answered.map Prod.fst).dedup := by
    refine (List.perm_ext_iff_of_nodup hmemo.keys_nodup (List.nodup_dedup _)).mpr fun key ↦ ?_
    rw [List.mem_dedup, List.mem_map, List.mem_map]
    simp only [hmemo.mem_entries]
  rw [← hperm.length_eq, List.length_map]

/-! ### Every caller gets its answer -/

/-- How many moves a caller has left at most. -/
def Progress.left : Progress Content Error → ℕ
  | .looks again => again + 3
  | .makes => 2
  | .adds _ => 1
  | .ended _ => 0

/-- The event is a move of the caller. -/
def Event.isMoveOf [DecidableEq Caller] (caller : Caller) : Event Caller → Bool
  | .move mover => mover = caller
  | .clear => false

section Ends

variable [DecidableEq Caller] [DecidableEq Key]

theorem progress_move_of_ne {caller other : Caller} (hne : other ≠ caller) :
    (memo.move calls caller).progress other = memo.progress other := by
  have hgoTo : ∀ next : Progress Content Error,
      Function.update memo.progress caller next other = memo.progress other :=
    fun next ↦ Function.update_of_ne hne _ _
  unfold Memo.move
  dsimp only
  split
  · split <;> exact hgoTo _
  · split <;> exact hgoTo _
  · split <;> exact hgoTo _
  · rfl

theorem left_move (memo : Memo Caller Key Content Error) (caller : Caller) :
    ((memo.move calls caller).progress caller).left ≤ (memo.progress caller).left - 1 := by
  have hgoTo : ∀ next : Progress Content Error,
      (Function.update memo.progress caller next caller).left = next.left :=
    fun next ↦ congrArg Progress.left (Function.update_self _ _ _)
  unfold Memo.move
  dsimp only
  split
  · next again hlooks =>
    rw [hlooks]
    split <;> refine (hgoTo _).trans_le ?_ <;> simp only [Progress.left] <;> omega
  · next hmakes =>
    rw [hmakes]
    split <;> refine (hgoTo _).trans_le ?_ <;> simp [Progress.left]
  · next value hadds =>
    rw [hadds]
    split <;> exact (hgoTo _).le
  · next answer hended =>
    rw [hended]
    exact Nat.le_refl _

/-- Whatever the others do, a caller has its answer after a fixed number of moves of its own. -/
theorem left_run (caller : Caller) (events : List (Event Caller))
    (memo : Memo Caller Key Content Error) :
    ((run (Memo.step calls) memo events).progress caller).left ≤
      (memo.progress caller).left - events.countP (Event.isMoveOf caller) := by
  induction events generalizing memo with
  | nil => simp
  | cons event rest ih =>
    rw [run_cons]
    refine (ih _).trans ?_
    cases event with
    | clear =>
      rw [List.countP_cons_of_neg (by simp [Event.isMoveOf])]
      exact Nat.le_refl _
    | move mover =>
      by_cases hsame : mover = caller
      · subst hsame
        have hmove : ((memo.move calls mover).progress mover).left ≤ (memo.progress mover).left - 1 :=
          left_move memo mover
        rw [List.countP_cons_of_pos (by simp [Event.isMoveOf])]
        show ((memo.move calls mover).progress mover).left - _ ≤ _
        omega
      · rw [List.countP_cons_of_neg (by simp [Event.isMoveOf, hsame]), Memo.step,
          progress_move_of_ne (Ne.symm hsame)]

/-- Nothing has been answered before a clearing while the table is not cleared. -/
theorem answeredBefore_run {events : List (Event Caller)} (hclear : Event.clear ∉ events)
    (hbefore : memo.answeredBefore = []) :
    (run (Memo.step calls) memo events).answeredBefore = [] := by
  induction events generalizing memo with
  | nil => exact hbefore
  | cons event rest ih =>
    obtain ⟨hevent, hrest⟩ := not_or.mp (mt List.mem_cons.mpr hclear)
    refine ih hrest ?_
    cases event with
    | clear => exact absurd rfl hevent
    | move caller =>
      rw [Memo.step, Memo.move]
      dsimp only
      split
      · split <;> exact hbefore
      · split <;> exact hbefore
      · split <;> exact hbefore
      · exact hbefore

end Ends

end SharpArch.Foundation.SharedMemo
