import SharpArch.RavenDb.TransactionManager

/-!
# The transaction field and the open scope

`ScopeInStep` is the relation between the field of a transaction manager and the scopes it made
that the class intends: the open scope is the one the field holds. `Correct` collects what a caller
relies on after one call. A call keeps the field in step unless it disposes of the current scope
and leaves the field as it is; `KeepsInStep` says so before the call.

`effect_or_orphaned` lists what a call can do to a field in step, `correct_iff_keepsInStep` is the
statement for one call, and `everyCall_correct_iff` the one for histories of any length, with saves
and disposals failing anywhere and handles disposed by their holders. `disposed_handle_not_correct`
is the `using` pattern that the returned `IDisposable` invites.
-/

set_option autoImplicit false
set_option relaxedAutoImplicit false

namespace SharpArch.RavenDb.TransactionManager

open Foundation.Run Platform.SystemTransactions

variable {Key Document : Type}

/-! ### The field and the scopes -/

/-- The scope of a handle exists and is not disposed. -/
def IsOpen (manager : TransactionManager Key Document) (handle : ℕ) : Prop :=
  ∃ scope, manager.scopes[handle]? = some scope ∧ scope.disposed = false

/-- `Complete` has succeeded on the scope of a handle. -/
def IsCompleted (manager : TransactionManager Key Document) (handle : ℕ) : Prop :=
  ∃ scope, manager.scopes[handle]? = some scope ∧ scope.completed = true

/-- The field holds the open scope, and there is no other. -/
def ScopeInStep (manager : TransactionManager Key Document) : Prop :=
  ∀ handle, IsOpen manager handle ↔ manager.transaction = some handle

/-- What a caller relies on after a call: `IsActive` reports an open scope and there is at most
one, `BeginTransaction` returns an open scope, a scope is completed only by the commit that saved
its changes, and the database is written only while a scope is open. -/
structure Correct (manager : TransactionManager Key Document) (call : Call Key Document) :
    Prop where
  active_iff : (step manager call).isActive = true ↔ ∃ handle, IsOpen (step manager call) handle
  open_unique : ∀ first second, IsOpen (step manager call) first →
    IsOpen (step manager call) second → first = second
  returned_open : ∀ handle, (answer manager call).1 = .ok (some handle) →
    IsOpen (step manager call) handle
  completed_after_save : ∀ handle, IsCompleted (step manager call) handle →
    IsCompleted manager handle ∨ ∃ outcome, call = .commitTransactionAsync outcome ∧
      outcome.saveChangesThrows = false ∧ manager.transaction = some handle
  written_while_open : (step manager call).session.written ≠ manager.session.written →
    ∃ outcome handle, call = .commitTransactionAsync outcome ∧ IsOpen manager handle

/-- The current scope is not disposed of behind the field: the holder of its handle does not
dispose of it, and a `Dispose` the manager makes on it does not throw after disposing. -/
def KeepsInStep (manager : TransactionManager Key Document) : Call Key Document → Prop
  | .beginTransaction _ => True
  | .commitTransactionAsync outcome =>
    ∀ handle, manager.transaction = some handle → outcome.saveChangesThrows = false →
      ¬ IsCompleted manager handle → outcome.dispose ≠ .throwsDisposed
  | .rollbackTransactionAsync dispose =>
    manager.transaction ≠ none → dispose ≠ .throwsDisposed
  | .disposeHandle handle dispose =>
    manager.transaction = some handle → dispose = .throwsOpen
  | .register _ => True

/-! ### What a call can do -/

section Effects

variable {manager next : TransactionManager Key Document}

theorem isOpen_of_scopes_eq (hscopes : next.scopes = manager.scopes) (handle : ℕ) :
    IsOpen next handle ↔ IsOpen manager handle := by
  unfold IsOpen
  rw [hscopes]

theorem isOpen_append_iff {scope : TransactionScope} (hopen : scope.disposed = false)
    (hscopes : next.scopes = manager.scopes ++ [scope]) (handle : ℕ) :
    IsOpen next handle ↔ IsOpen manager handle ∨ handle = manager.scopes.length := by
  unfold IsOpen
  rw [hscopes]
  rcases Nat.lt_trichotomy handle manager.scopes.length with hlt | heq | hgt
  · rw [List.getElem?_append_left hlt]
    simp [Nat.ne_of_lt hlt]
  · subst heq
    simp [hopen]
  · rw [List.getElem?_append_right (Nat.le_of_lt hgt)]
    have hnone : [scope][handle - manager.scopes.length]? = none := by
      rw [List.getElem?_eq_none_iff, List.length_singleton]
      omega
    have hbeyond : manager.scopes[handle]? = none := List.getElem?_eq_none_iff.mpr (Nat.le_of_lt hgt)
    simp [hnone, hbeyond, Nat.ne_of_gt hgt]

theorem isOpen_set_iff {scope : TransactionScope} {current : ℕ}
    (hcurrent : current < manager.scopes.length)
    (hscopes : next.scopes = manager.scopes.set current scope) (handle : ℕ) :
    IsOpen next handle ↔
      if handle = current then scope.disposed = false else IsOpen manager handle := by
  unfold IsOpen
  rw [hscopes, List.getElem?_set]
  by_cases hsame : handle = current
  · subst hsame
    simp [hcurrent]
  · rw [if_neg (Ne.symm hsame), if_neg hsame]

/-- What a call that keeps the field in step can do to the field and the scopes. -/
inductive Effect (manager next : TransactionManager Key Document) : Prop
  | unchanged (hscopes : next.scopes = manager.scopes)
      (htransaction : next.transaction = manager.transaction)
  | opened (scope : TransactionScope) (hopen : scope.disposed = false)
      (hidle : manager.transaction = none) (hscopes : next.scopes = manager.scopes ++ [scope])
      (htransaction : next.transaction = some manager.scopes.length)
  | kept (handle : ℕ) (scope : TransactionScope) (hopen : scope.disposed = false)
      (hcurrent : manager.transaction = some handle)
      (hscopes : next.scopes = manager.scopes.set handle scope)
      (htransaction : next.transaction = some handle)
  | closed (handle : ℕ) (scope : TransactionScope) (hdisposed : scope.disposed = true)
      (hcurrent : manager.transaction = some handle)
      (hscopes : next.scopes = manager.scopes.set handle scope)
      (htransaction : next.transaction = none)

/-- The field holds a scope although none is open. -/
def Orphaned (manager : TransactionManager Key Document) : Prop :=
  manager.isActive = true ∧ ∀ handle, ¬ IsOpen manager handle

theorem ScopeInStep.isActive_iff (hstep : ScopeInStep manager) :
    manager.isActive = true ↔ ∃ handle, IsOpen manager handle := by
  unfold isActive
  rw [Option.isSome_iff_exists]
  exact exists_congr fun handle ↦ (hstep handle).symm

theorem ScopeInStep.current (hstep : ScopeInStep manager) {handle : ℕ}
    (hcurrent : manager.transaction = some handle) :
    ∃ scope, manager.scopes[handle]? = some scope ∧ scope.disposed = false :=
  (hstep handle).mpr hcurrent

theorem scopeInStep_of_effect (hstep : ScopeInStep manager) (heffect : Effect manager next) :
    ScopeInStep next := by
  intro handle
  cases heffect with
  | unchanged hscopes htransaction =>
    rw [isOpen_of_scopes_eq hscopes, htransaction]
    exact hstep handle
  | opened scope hopen hidle hscopes htransaction =>
    rw [isOpen_append_iff hopen hscopes, htransaction, hstep handle, hidle]
    simp [eq_comm]
  | kept current scope hopen hcurrent hscopes htransaction =>
    obtain ⟨old, hold, -⟩ := hstep.current hcurrent
    obtain ⟨hlt, -⟩ := List.getElem?_eq_some_iff.mp hold
    rw [isOpen_set_iff hlt hscopes, htransaction, hstep handle, hcurrent]
    by_cases hsame : handle = current
    · simp [hsame, hopen]
    · simp [hsame]
  | closed current scope hdisposed hcurrent hscopes htransaction =>
    obtain ⟨old, hold, -⟩ := hstep.current hcurrent
    obtain ⟨hlt, -⟩ := List.getElem?_eq_some_iff.mp hold
    rw [isOpen_set_iff hlt hscopes, htransaction, hstep handle, hcurrent]
    by_cases hsame : handle = current
    · simp [hsame, hdisposed]
    · simp [hsame, Ne.symm hsame]

/-- Disposing of the current scope without emptying the field leaves it holding a closed scope. -/
theorem orphaned_of_set (hstep : ScopeInStep manager) {handle : ℕ} {scope : TransactionScope}
    (hdisposed : scope.disposed = true) (hcurrent : manager.transaction = some handle)
    (hscopes : next.scopes = manager.scopes.set handle scope)
    (htransaction : next.transaction = some handle) : Orphaned next := by
  obtain ⟨old, hold, -⟩ := hstep.current hcurrent
  obtain ⟨hlt, -⟩ := List.getElem?_eq_some_iff.mp hold
  refine ⟨by simp [isActive, htransaction], fun other ↦ ?_⟩
  rw [isOpen_set_iff hlt hscopes, hstep other, hcurrent]
  by_cases hsame : other = handle
  · simp [hsame, hdisposed]
  · simp [hsame, Ne.symm hsame]

end Effects

/-! ### One call -/

section Steps

variable {manager : TransactionManager Key Document}

/-- `ClearTransaction` on an open current scope. -/
theorem clearTransaction_effect (manager : TransactionManager Key Document)
    (dispose : DisposeOutcome) {handle : ℕ} {scope : TransactionScope}
    (hcurrent : manager.transaction = some handle)
    (hscope : manager.scopes[handle]? = some scope) (hopen : scope.disposed = false) :
    (dispose ≠ .throwsDisposed ∧ Effect manager (clearTransaction dispose manager).2) ∨
      (dispose = .throwsDisposed ∧ ∃ disposed : TransactionScope, disposed.disposed = true ∧
        (clearTransaction dispose manager).2.scopes = manager.scopes.set handle disposed ∧
        (clearTransaction dispose manager).2.transaction = some handle) := by
  simp only [clearTransaction, hcurrent, callScope_of_getElem? hscope]
  cases dispose with
  | returns =>
    refine Or.inl ⟨by decide, ?_⟩
    simp only [TransactionScope.dispose, hopen, Bool.false_eq_true, if_false]
    exact .closed handle { scope with disposed := true } rfl hcurrent rfl rfl
  | throwsDisposed =>
    refine Or.inr ⟨rfl, { scope with disposed := true }, rfl, ?_⟩
    simp [TransactionScope.dispose, hopen]
  | throwsOpen =>
    refine Or.inl ⟨by decide, ?_⟩
    simp only [TransactionScope.dispose, hopen, Bool.false_eq_true, if_false]
    exact .kept handle scope hopen hcurrent rfl rfl

/-- What happens after the current scope was replaced by an open one happens to the manager
before. -/
theorem Effect.of_set {next : TransactionManager Key Document} {handle : ℕ}
    {scope : TransactionScope} {session : DocumentSession Key Document}
    (hopen : scope.disposed = false) (hcurrent : manager.transaction = some handle)
    (heffect : Effect
      { manager with session := session, scopes := manager.scopes.set handle scope } next) :
    Effect manager next := by
  cases heffect with
  | unchanged hscopes htransaction =>
    exact .kept handle scope hopen hcurrent hscopes (htransaction.trans hcurrent)
  | opened _ _ hidle _ _ => exact absurd (hcurrent.symm.trans hidle) (Option.some_ne_none _)
  | kept other last hlast hother hscopes htransaction =>
    obtain rfl : handle = other := Option.some.inj (hcurrent.symm.trans hother)
    exact .kept handle last hlast hcurrent (by rw [hscopes, List.set_set]) htransaction
  | closed other last hlast hother hscopes htransaction =>
    obtain rfl : handle = other := Option.some.inj (hcurrent.symm.trans hother)
    exact .closed handle last hlast hcurrent (by rw [hscopes, List.set_set]) htransaction

theorem effect_refl : Effect manager manager := .unchanged rfl rfl

theorem beginTransaction_effect (isolationLevel : IsolationLevel) :
    Effect manager (beginTransaction isolationLevel manager).2 := by
  unfold beginTransaction
  cases hcurrent : manager.transaction with
  | some handle => exact effect_refl
  | none =>
    cases mapIsolationLevel isolationLevel with
    | error exception => exact effect_refl
    | ok level => exact .opened ⟨level, false, false⟩ rfl hcurrent rfl rfl

theorem rollbackTransactionAsync_effect (hstep : ScopeInStep manager) (dispose : DisposeOutcome) :
    let next := (rollbackTransactionAsync dispose manager).2
    (KeepsInStep manager (.rollbackTransactionAsync dispose) ∧ Effect manager next) ∨
      (¬ KeepsInStep manager (.rollbackTransactionAsync dispose) ∧ Orphaned next) := by
  intro next
  cases hcurrent : manager.transaction with
  | none =>
    refine Or.inl ⟨fun hactive ↦ absurd hcurrent hactive, ?_⟩
    simp only [next, rollbackTransactionAsync, clearTransaction, hcurrent]
    exact effect_refl
  | some handle =>
    obtain ⟨scope, hscope, hopen⟩ := hstep.current hcurrent
    rcases clearTransaction_effect manager dispose hcurrent hscope hopen with
      ⟨hdispose, heffect⟩ | ⟨hdispose, disposed, hdisposed, hscopes, htransaction⟩
    · exact Or.inl ⟨fun _ ↦ hdispose, heffect⟩
    · refine Or.inr ⟨fun hkeeps ↦ ?_, orphaned_of_set hstep hdisposed hcurrent hscopes htransaction⟩
      exact hkeeps (by rw [hcurrent]; exact Option.some_ne_none _) hdispose

/-- A handle other than the current one is that of a scope disposed of earlier, and disposing of it
again does nothing. -/
theorem dispose_of_ne (hstep : ScopeInStep manager) {handle : ℕ}
    (hne : manager.transaction ≠ some handle) (dispose : DisposeOutcome) :
    (callScope (·.dispose dispose) handle manager).2 = manager := by
  cases hscope : manager.scopes[handle]? with
  | none => simp only [callScope, hscope]
  | some scope =>
    have hdisposed : scope.disposed = true := by
      by_contra hopen
      exact hne ((hstep handle).mp ⟨scope, hscope, by simpa using hopen⟩)
    have hself : (scope.dispose dispose).2 = scope := by
      simp [TransactionScope.dispose, hdisposed]
    exact callScope_self hscope hself

theorem disposeHandle_effect (hstep : ScopeInStep manager) (handle : ℕ)
    (dispose : DisposeOutcome) :
    let next := (callScope (·.dispose dispose) handle manager).2
    (KeepsInStep manager (.disposeHandle handle dispose) ∧ Effect manager next) ∨
      (¬ KeepsInStep manager (.disposeHandle handle dispose) ∧ Orphaned next) := by
  intro next
  by_cases hcurrent : manager.transaction = some handle
  · obtain ⟨scope, hscope, hopen⟩ := hstep.current hcurrent
    have hnext : next = { manager with
        scopes := manager.scopes.set handle (scope.dispose dispose).2 } := by
      simp only [next, callScope_of_getElem? hscope]
    by_cases hdispose : dispose = .throwsOpen
    · have hstill : (scope.dispose dispose).2.disposed = false :=
        dispose_open_iff.mpr ⟨hopen, hdispose⟩
      rw [hnext]
      exact Or.inl ⟨fun _ ↦ hdispose, .kept handle _ hstill hcurrent rfl hcurrent⟩
    · have hdisposed : (scope.dispose dispose).2.disposed = true := by
        rw [← Bool.not_eq_false, dispose_open_iff]
        exact fun h ↦ hdispose h.2
      rw [hnext]
      exact Or.inr ⟨fun hkeeps ↦ hdispose (hkeeps hcurrent),
        orphaned_of_set hstep hdisposed hcurrent rfl hcurrent⟩
  · refine Or.inl ⟨fun h ↦ absurd h hcurrent, ?_⟩
    have hnext : next = manager := dispose_of_ne hstep hcurrent dispose
    rw [hnext]
    exact effect_refl

/-- A commit that saves and completes its scope disposes of it: it keeps the field in step exactly
when `Dispose` does not throw with the scope open. -/
theorem commitTransactionAsync_effect_of_completing (hstep : ScopeInStep manager)
    {outcome : CommitOutcome} (hsave : outcome.saveChangesThrows = false) {handle : ℕ}
    (hcurrent : manager.transaction = some handle) {scope : TransactionScope}
    (hscope : manager.scopes[handle]? = some scope) (hopen : scope.disposed = false)
    (hcompleted : scope.completed = false) :
    let next := (commitTransactionAsync outcome manager).2
    (KeepsInStep manager (.commitTransactionAsync outcome) ∧ Effect manager next) ∨
      (¬ KeepsInStep manager (.commitTransactionAsync outcome) ∧ Orphaned next) := by
  intro next
  have hlt : handle < manager.scopes.length := (List.getElem?_eq_some_iff.mp hscope).1
  let completed : TransactionScope := { scope with completed := true }
  let saved : TransactionManager Key Document :=
    { manager with
      session := manager.session.saveChangesAsync
      scopes := manager.scopes.set handle completed }
  have hstill : completed.disposed = false := hopen
  have hnext : next = (clearTransaction outcome.dispose saved).2 := by
    simp [next, saved, completed, commitTransactionAsync, hcurrent, hsave, callScope, hscope,
      TransactionScope.complete, hopen, hcompleted]
  have hnot : ¬ IsCompleted manager handle := by
    rintro ⟨other, hother, hdone⟩
    obtain rfl : scope = other := Option.some.inj (hscope.symm.trans hother)
    exact absurd (hcompleted.symm.trans hdone) (by decide)
  rw [hnext]
  rcases clearTransaction_effect saved outcome.dispose hcurrent
      (List.getElem?_set_self hlt) hstill with
    ⟨hdispose, heffect⟩ | ⟨hdispose, disposed, hdisposed, hscopes, htransaction⟩
  · exact Or.inl ⟨fun _ _ _ _ ↦ hdispose, heffect.of_set hstill hcurrent⟩
  · refine Or.inr ⟨fun hkeeps ↦ hkeeps handle hcurrent hsave hnot hdispose, ?_⟩
    exact orphaned_of_set hstep hdisposed hcurrent
      (by rw [hscopes]; exact List.set_set ..) htransaction

theorem commitTransactionAsync_effect (hstep : ScopeInStep manager) (outcome : CommitOutcome) :
    let next := (commitTransactionAsync outcome manager).2
    (KeepsInStep manager (.commitTransactionAsync outcome) ∧ Effect manager next) ∨
      (¬ KeepsInStep manager (.commitTransactionAsync outcome) ∧ Orphaned next) := by
  intro next
  cases hcurrent : manager.transaction with
  | none =>
    refine Or.inl ⟨fun handle h ↦ absurd (hcurrent.symm.trans h) (Option.some_ne_none _).symm, ?_⟩
    simp only [next, commitTransactionAsync, hcurrent]
    exact effect_refl
  | some handle =>
    obtain ⟨scope, hscope, hopen⟩ := hstep.current hcurrent
    cases hsave : outcome.saveChangesThrows with
    | true =>
      refine Or.inl ⟨fun _ _ h ↦ absurd (hsave.symm.trans h) (by decide), ?_⟩
      simp only [next, commitTransactionAsync, hcurrent, hsave, if_true]
      exact effect_refl
    | false =>
      cases hcompleted : scope.completed with
      | true =>
        -- `Complete` throws, the scope stays as it is
        refine Or.inl ⟨fun other h _ hnot ↦ ?_, ?_⟩
        · obtain rfl : handle = other := Option.some.inj (hcurrent.symm.trans h)
          exact absurd ⟨scope, hscope, hcompleted⟩ hnot
        · simp only [next, commitTransactionAsync, hcurrent, hsave, callScope, hscope,
            TransactionScope.complete, hopen, hcompleted, Bool.false_eq_true, if_false, if_true]
          exact .kept handle scope hopen hcurrent rfl rfl
      | false =>
        exact commitTransactionAsync_effect_of_completing hstep hsave hcurrent hscope hopen hcompleted

/-- A call on a manager whose field is in step either keeps it in step and has one of the effects
of `Effect`, or leaves the field holding a closed scope. -/
theorem effect_or_orphaned (hstep : ScopeInStep manager) (call : Call Key Document) :
    (KeepsInStep manager call ∧ Effect manager (step manager call)) ∨
      (¬ KeepsInStep manager call ∧ Orphaned (step manager call)) := by
  cases call with
  | beginTransaction isolationLevel =>
    exact Or.inl ⟨trivial, beginTransaction_effect isolationLevel⟩
  | commitTransactionAsync outcome => exact commitTransactionAsync_effect hstep outcome
  | rollbackTransactionAsync dispose => exact rollbackTransactionAsync_effect hstep dispose
  | disposeHandle handle dispose => exact disposeHandle_effect hstep handle dispose
  | register command => exact Or.inl ⟨trivial, .unchanged rfl rfl⟩

/-- A call that keeps the field in step leaves it in step. -/
theorem scopeInStep_step (hstep : ScopeInStep manager) (call : Call Key Document)
    (hkeeps : KeepsInStep manager call) : ScopeInStep (step manager call) := by
  rcases effect_or_orphaned hstep call with ⟨-, heffect⟩ | ⟨hnot, -⟩
  · exact scopeInStep_of_effect hstep heffect
  · exact absurd hkeeps hnot

end Steps

/-! ### The session and the completed scopes -/

section Session

variable {manager : TransactionManager Key Document}

theorem isCompleted_dispose_iff (manager : TransactionManager Key Document)
    (dispose : DisposeOutcome) (handle other : ℕ) :
    IsCompleted (callScope (·.dispose dispose) handle manager).2 other ↔
      IsCompleted manager other := by
  cases hscope : manager.scopes[handle]? with
  | none => simp only [callScope, hscope]
  | some scope =>
    rw [callScope_of_getElem? hscope]
    simp only [IsCompleted, List.getElem?_set]
    by_cases hsame : handle = other
    · subst hsame
      have hlt : handle < manager.scopes.length := (List.getElem?_eq_some_iff.mp hscope).1
      rw [if_pos rfl, if_pos hlt, hscope]
      simp
    · rw [if_neg hsame]

theorem isCompleted_clearTransaction_iff (dispose : DisposeOutcome) (other : ℕ) :
    IsCompleted (clearTransaction dispose manager).2 other ↔ IsCompleted manager other := by
  cases hcurrent : manager.transaction with
  | none => simp only [clearTransaction, hcurrent]
  | some handle =>
    have hdispose := isCompleted_dispose_iff manager dispose handle other
    rw [clearTransaction_of_some hcurrent]
    rcases hcall : callScope (·.dispose dispose) handle manager with ⟨_ | _, disposed⟩ <;>
      rw [hcall] at hdispose <;> exact hdispose

theorem isCompleted_complete {handle other : ℕ}
    (h : IsCompleted (callScope TransactionScope.complete handle manager).2 other) :
    IsCompleted manager other ∨ other = handle := by
  cases hscope : manager.scopes[handle]? with
  | none =>
    simp only [callScope, hscope] at h
    exact Or.inl h
  | some scope =>
    rw [callScope_of_getElem? hscope] at h
    simp only [IsCompleted, List.getElem?_set] at h
    by_cases hsame : handle = other
    · exact Or.inr hsame.symm
    · rw [if_neg hsame] at h
      exact Or.inl h

/-- A commit completes no scope but the current one. -/
theorem isCompleted_commitTransactionAsync {outcome : CommitOutcome} {other : ℕ}
    (h : IsCompleted (commitTransactionAsync outcome manager).2 other) :
    IsCompleted manager other ∨
      (outcome.saveChangesThrows = false ∧ manager.transaction = some other) := by
  cases hcurrent : manager.transaction with
  | none =>
    rw [commitTransactionAsync_eq_self (Or.inl hcurrent)] at h
    exact Or.inl h
  | some handle =>
    cases hsave : outcome.saveChangesThrows with
    | true =>
      rw [commitTransactionAsync_eq_self (Or.inr hsave)] at h
      exact Or.inl h
    | false =>
      let unsaved : TransactionManager Key Document :=
        { manager with session := manager.session.saveChangesAsync }
      have hcomplete : IsCompleted (callScope TransactionScope.complete handle unsaved).2 other := by
        rw [commitTransactionAsync_of_some hcurrent hsave] at h
        rcases hcall : callScope TransactionScope.complete handle unsaved with ⟨_ | _, saved⟩
        · rw [hcall] at h
          exact h
        · rw [hcall] at h
          exact (isCompleted_clearTransaction_iff _ _).mp h
      rcases isCompleted_complete hcomplete with hbefore | rfl
      · exact Or.inl hbefore
      · exact Or.inr ⟨rfl, rfl⟩

/-- A scope is completed only by a commit, on the current scope and after its save. -/
theorem isCompleted_step {call : Call Key Document} {handle : ℕ}
    (h : IsCompleted (step manager call) handle) :
    IsCompleted manager handle ∨ ∃ outcome, call = .commitTransactionAsync outcome ∧
      outcome.saveChangesThrows = false ∧ manager.transaction = some handle := by
  cases call with
  | beginTransaction isolationLevel =>
    refine Or.inl ?_
    simp only [step, answer, beginTransaction] at h
    split at h
    · exact h
    · split at h
      · exact h
      · obtain ⟨scope, hscope, hcompleted⟩ := h
        rw [List.getElem?_append] at hscope
        split_ifs at hscope
        · exact ⟨scope, hscope, hcompleted⟩
        · -- the scope just made is not completed
          obtain rfl := List.mem_singleton.mp (List.mem_of_getElem? hscope)
          exact absurd hcompleted Bool.false_ne_true
  | commitTransactionAsync outcome =>
    rcases isCompleted_commitTransactionAsync h with hbefore | hafter
    · exact Or.inl hbefore
    · exact Or.inr ⟨outcome, rfl, hafter⟩
  | rollbackTransactionAsync dispose =>
    exact Or.inl ((isCompleted_clearTransaction_iff dispose handle).mp h)
  | disposeHandle other dispose =>
    exact Or.inl ((isCompleted_dispose_iff manager dispose other handle).mp h)
  | register command => exact Or.inl h

end Session

/-! ### Whole histories -/

theorem scopeInStep_start (session : DocumentSession Key Document) :
    ScopeInStep (start session) := by
  intro handle
  simp [IsOpen, start]

/-- A call on a manager whose field is in step is correct exactly when it keeps it in step. -/
theorem correct_iff_keepsInStep {manager : TransactionManager Key Document}
    (hstep : ScopeInStep manager) (call : Call Key Document) :
    Correct manager call ↔ KeepsInStep manager call := by
  constructor
  · intro hcorrect
    rcases effect_or_orphaned hstep call with ⟨hkeeps, -⟩ | ⟨-, hactive, hclosed⟩
    · exact hkeeps
    · obtain ⟨handle, hopen⟩ := hcorrect.active_iff.mp hactive
      exact absurd hopen (hclosed handle)
  · intro hkeeps
    have hnext : ScopeInStep (step manager call) := scopeInStep_step hstep call hkeeps
    refine ⟨hnext.isActive_iff, fun first second hfirst hsecond ↦ ?_,
      fun handle hanswer ↦ (hnext handle).mpr (transaction_of_answer hanswer),
      fun handle hcompleted ↦ isCompleted_step hcompleted, fun hwritten ↦ ?_⟩
    · have hfirst' := (hnext first).mp hfirst
      have hsecond' := (hnext second).mp hsecond
      exact Option.some.inj (hfirst'.symm.trans hsecond')
    · obtain ⟨outcome, rfl, hbegun⟩ := written_step hwritten
      obtain ⟨handle, hcurrent⟩ := Option.ne_none_iff_exists'.mp hbegun
      exact ⟨outcome, handle, rfl, (hstep handle).mpr hcurrent⟩

/-- Over histories of any length, with saves and disposals failing anywhere and handles disposed by
their holders: every call is correct exactly when no call disposes of the current scope behind the
field. -/
theorem everyCall_correct_iff (session : DocumentSession Key Document)
    (calls : List (Call Key Document)) :
    EveryCall step Correct (start session) calls ↔
      EveryCall step KeepsInStep (start session) calls := by
  refine everyCall_iff_of_invariant ?_ ?_ (scopeInStep_start session) calls
  · intro manager call hstep hkeeps
    exact scopeInStep_step hstep call hkeeps
  · intro manager call hstep
    exact correct_iff_keepsInStep hstep call

/-- A caller that disposes of the handle it was given leaves the manager active with no open scope:
the next `BeginTransaction` returns the disposed scope, and the next commit writes the pending
changes before `Complete` throws. -/
theorem disposed_handle_not_correct :
    let calls : List (Call ℕ ℕ) :=
      [.beginTransaction .readCommitted, .register (.put 7), .disposeHandle 0 .returns]
    let manager := run step (start {}) calls
    ¬ EveryCall step Correct (start {}) calls ∧
      manager.isActive = true ∧ (∀ handle, ¬ IsOpen manager handle) ∧
      (answer manager (.beginTransaction .readCommitted)).1 = .ok (some 0) ∧
      (answer manager (.commitTransactionAsync {})).1 = .error .objectDisposed ∧
      (step manager (.commitTransactionAsync {})).session.written = [⟨0, .put 7⟩] := by
  intro calls manager
  have hscopes : manager.scopes = [⟨.readCommitted, false, true⟩] := by decide
  have hclosed : ∀ handle, ¬ IsOpen manager handle := by
    rintro handle ⟨scope, hscope, hopen⟩
    rw [hscopes] at hscope
    obtain rfl := List.mem_singleton.mp (List.mem_of_getElem? hscope)
    exact absurd hopen (by decide)
  refine ⟨fun hcorrect ↦ ?_, by decide, hclosed, by decide, by decide, by decide⟩
  obtain ⟨-, -, hdispose, -⟩ := hcorrect
  obtain ⟨handle, hopen⟩ := hdispose.active_iff.mp (by decide)
  exact hclosed handle hopen

end SharpArch.RavenDb.TransactionManager
