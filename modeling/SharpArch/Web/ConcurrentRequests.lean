import SharpArch.Foundation.CommitLog
import SharpArch.Web.AtomicRequest

/-!
# Concurrent requests over one RavenDB database

Each request has a session and a transaction manager of its own, and the database is the same for all
of them. An `ActionCode` is the code of an action: what it does next, and how it goes on, depends on
what the database holds at that moment. `serve` makes the next move of one request: the handler begins
the transaction, the action makes a step, or the handler ends the transaction; a schedule says who
moves when.

Interleaving the requests changes nothing about any one of them: a request that is done has come to
what the handler makes of the steps its action has performed, had it been alone
(`RequestState.Follows`). The database is what the requests that are done have written, one after the
other, each all or nothing, and an action reads no state between (`serialHistory_serve`).
-/

set_option autoImplicit false
set_option relaxedAutoImplicit false

namespace SharpArch.Web

open Foundation.CommitLog Foundation.Run Platform.SystemTransactions Domain.PersistenceSupport
open RavenDb AutoTransactionHandler

variable {Request TId Key Document Database : Type}

/-- The code of an action. What it does next depends on what the database holds. -/
inductive ActionCode (TId Key Document Database : Type)
  | returns
  | step (perform : Database → BodyStep TId Key Document)
      (goOn : Database → ActionCode TId Key Document Database)

/-- The steps an action performs while it reads states of the database, one for each step, and what is
left of its code. -/
def ActionCode.follow : ActionCode TId Key Document Database → List Database →
    List (BodyStep TId Key Document) × ActionCode TId Key Document Database
  | code, [] => ([], code)
  | .returns, _ :: _ => ([], .returns)
  | .step perform goOn, database :: seen =>
    (perform database :: ((goOn database).follow seen).1, ((goOn database).follow seen).2)

/-- A request to an action that is run together with others. -/
structure ConcurrentRequest (TId Key Document Database : Type) where
  settings : TransactionAttribute
  code : ActionCode TId Key Document Database
  modelStateIsValid : Bool
  commit : TransactionManager Key Document → CommitOutcome
  dispose : TransactionManager Key Document → DisposeOutcome

/-- The request that is alone and whose action performs the given steps. -/
def ConcurrentRequest.alone (request : ConcurrentRequest TId Key Document Database)
    (performed : List (BodyStep TId Key Document)) : ActionRequest TId Key Document where
  settings := request.settings
  steps := performed
  modelStateIsValid := request.modelStateIsValid
  commit := request.commit
  dispose := request.dispose

/-- `BeginTransaction` of the handler, on the manager made for the request. -/
def ConcurrentRequest.begins (request : ConcurrentRequest TId Key Document Database) :
    Except Exn ℕ × TransactionManager Key Document :=
  (TransactionManager.start {}).beginTransaction request.settings.isolationLevel

/-- How far a request has come: its action is running, or has returned or thrown, or the handler is
done. -/
inductive RequestState (TId Key Document Database : Type)
  | arrived
  | running (manager : TransactionManager Key Document) (performed : List (BodyStep TId Key Document))
      (code : ActionCode TId Key Document Database)
  | executed (manager : TransactionManager Key Document)
      (performed : List (BodyStep TId Key Document)) (exception : Option Exn)
  | ended (performed : List (BodyStep TId Key Document)) (manager : TransactionManager Key Document)

/-- What a request has written to the database. -/
def RequestState.written : RequestState TId Key Document Database → List (Change Key Document)
  | .arrived => []
  | .running manager _ _ => manager.session.written
  | .executed manager _ _ => manager.session.written
  | .ended _ manager => manager.session.written

namespace ConcurrentRequest

variable [DecidableEq Document]

/-- The next move of a request, when the database holds the given documents. -/
def move (request : ConcurrentRequest TId Key Document Database) (database : Database) :
    RequestState TId Key Document Database → RequestState TId Key Document Database
  | .arrived =>
    match request.begins with
    | (.error _, begun) => .ended [] begun
    | (.ok _, begun) => .running begun [] request.code
  | .running manager performed .returns => .executed manager performed none
  | .running manager performed (.step perform goOn) =>
    match manager.session.body [perform database] with
    | (some exception, session) =>
      .executed { manager with session := session } (performed ++ [perform database]) (some exception)
    | (none, session) =>
      .running { manager with session := session } (performed ++ [perform database]) (goOn database)
  | .executed manager performed exception =>
    let context : ActionExecutedContext :=
      { exception := exception, modelStateIsValid := request.modelStateIsValid }
    .ended performed
      (if manager.isActive then
        (endTransaction request.settings (request.alone performed).manager context manager).2
      else manager)
  | .ended performed manager => .ended performed manager

end ConcurrentRequest

/-- The database, and how far every request has come. -/
structure Server (Request TId Key Document Database : Type) where
  database : Database
  state : Request → RequestState TId Key Document Database

namespace Server

/-- No request has been looked at yet. -/
def start (initial : Database) : Server Request TId Key Document Database where
  database := initial
  state _ := .arrived

variable [DecidableEq Request] [DecidableEq Document]

/-- A request makes its next move. The database takes what the move has added to what the session of
the request has written. -/
def serve (execute : Database → Command Key Document → Database)
    (requests : Request → ConcurrentRequest TId Key Document Database)
    (server : Server Request TId Key Document Database) (request : Request) :
    Server Request TId Key Document Database :=
  let before := server.state request
  let after := (requests request).move server.database before
  { database := DocumentSession.applyAll execute server.database
      (after.written.drop before.written.length)
    state := Function.update server.state request after }

end Server

/-! ### One request -/

section OneRequest

@[simp] theorem ActionCode.follow_nil (code : ActionCode TId Key Document Database) :
    code.follow [] = ([], code) := by
  cases code <;> rfl

theorem ActionCode.follow_concat {code : ActionCode TId Key Document Database} {seen : List Database}
    {performed : List (BodyStep TId Key Document)} {perform : Database → BodyStep TId Key Document}
    {goOn : Database → ActionCode TId Key Document Database}
    (hfollow : code.follow seen = (performed, .step perform goOn)) (database : Database) :
    code.follow (seen ++ [database]) = (performed ++ [perform database], goOn database) := by
  induction seen generalizing code performed with
  | nil =>
    obtain ⟨rfl, rfl⟩ := Prod.mk.inj (code.follow_nil.symm.trans hfollow)
    simp [follow]
  | cons first rest ih =>
    cases code with
    | returns => exact absurd (congrArg Prod.snd hfollow) nofun
    | step performFirst goOnFirst =>
      obtain ⟨rfl, hcode⟩ := Prod.mk.inj hfollow
      have hrest := ih (Prod.ext rfl hcode)
      simp only [List.cons_append, follow, hrest]

variable [DecidableEq Document]

/-- A body that has not thrown goes on with its next step. -/
theorem body_concat {session : DocumentSession Key Document} {steps : List (BodyStep TId Key Document)}
    (hreturns : (session.body steps).1 = none) (step : BodyStep TId Key Document) :
    session.body (steps ++ [step]) = (session.body steps).2.body [step] := by
  induction steps generalizing session with
  | nil => rfl
  | cons first rest ih =>
    cases first with
    | throws exception => exact absurd hreturns nofun
    | call call sessionThrows caught =>
      cases sessionThrows with
      | some exception =>
        cases caught with
        | true => exact ih hreturns
        | false => exact absurd hreturns nofun
      | none =>
        rcases hanswer : call.answer session with ⟨exception | _, called⟩
        · cases caught with
          | true =>
            simp only [List.cons_append, DocumentSession.body, hanswer, if_true] at hreturns ⊢
            exact ih hreturns
          | false => simp [DocumentSession.body, hanswer] at hreturns
        · simp only [List.cons_append, DocumentSession.body, hanswer] at hreturns ⊢
          exact ih hreturns

/-- The transaction was begun, and the action has performed the steps and ended as given. -/
structure Performed (request : ConcurrentRequest TId Key Document Database)
    (performed : List (BodyStep TId Key Document)) (exception : Option Exn)
    (manager : TransactionManager Key Document) : Prop where
  begins : ∃ handle, request.begins.1 = .ok handle
  next_eq : (request.alone performed).next request.begins.2 =
    ({ exception := exception, modelStateIsValid := request.modelStateIsValid }, manager)

variable {request : ConcurrentRequest TId Key Document Database}
  {performed : List (BodyStep TId Key Document)} {exception : Option Exn}
  {manager : TransactionManager Key Document}

/-- A step more has been performed. -/
theorem Performed.concat (hperformed : Performed request performed none manager)
    (step : BodyStep TId Key Document) :
    Performed request (performed ++ [step]) (manager.session.body [step]).1
      { manager with session := (manager.session.body [step]).2 } := by
  obtain ⟨hbegins, hnext⟩ := hperformed
  refine ⟨hbegins, ?_⟩
  obtain ⟨hcontext, rfl⟩ := Prod.mk.inj hnext
  have hreturns : (request.begins.2.session.body performed).1 = none :=
    congrArg ActionExecutedContext.exception hcontext
  simp only [ActionRequest.next, ConcurrentRequest.alone, body_concat hreturns]

/-- An action writes nothing to the database. -/
theorem Performed.written_eq (hperformed : Performed request performed exception manager) :
    manager.session.written = [] := by
  obtain ⟨-, rfl⟩ := Prod.mk.inj hperformed.next_eq
  refine (DocumentSession.written_body _ _).trans ?_
  rw [ConcurrentRequest.begins, TransactionManager.beginTransaction_session]
  rfl

/-- The handler ends the transaction of the request as it would if it were alone. -/
theorem Performed.handled_eq (hperformed : Performed request performed exception manager) :
    (request.alone performed).handled (TransactionManager.start {}) =
      if manager.isActive then
        (endTransaction request.settings (request.alone performed).manager
          { exception := exception, modelStateIsValid := request.modelStateIsValid } manager).2
      else manager := by
  obtain ⟨⟨handle, hbegins⟩, hnext⟩ := hperformed
  have hreturns : (request.alone performed).manager.beginTransaction
      (request.alone performed).settings.isolationLevel (TransactionManager.start {}) =
        (.ok (), request.begins.2) :=
    Prod.ext (congrArg (Except.map fun _ ↦ ()) hbegins) rfl
  rw [ActionRequest.handled, onActionExecutionAsync_of_isActive hreturns rfl, hnext]
  exact apply_ite Prod.snd _ _ _

/-- A `BeginTransaction` that throws is the end of the request. -/
theorem handled_of_throws {begun : TransactionManager Key Document} {thrown : Exn}
    (hbegins : request.begins = (.error thrown, begun)) :
    (request.alone []).handled (TransactionManager.start {}) = begun := by
  have hthrows : (request.alone []).manager.beginTransaction request.settings.isolationLevel
      (TransactionManager.start {}) = (.error thrown, begun) := by
    refine Prod.ext (congrArg (Except.map fun _ ↦ ()) (congrArg Prod.fst hbegins)) ?_
    exact (congrArg Prod.snd hbegins : request.begins.2 = begun)
  exact congrArg Prod.snd (onActionExecutionAsync_of_throws hthrows)

/-- A request that is alone writes everything its action leaves pending, when the action has not thrown,
or nothing. -/
theorem written_handled (request : ActionRequest TId Key Document) :
    (request.handled (TransactionManager.start {})).session.written = [] ∨
      request.thrown (TransactionManager.start {}) = none ∧
        (request.handled (TransactionManager.start {})).session.written =
          (request.left (TransactionManager.start {})).pending := by
  have hleft : (request.left (TransactionManager.start {})).written = [] :=
    DocumentSession.written_body _ _
  rcases hbegin : ((TransactionManager.start {} : TransactionManager Key Document).beginTransaction
    request.settings.isolationLevel).1 with exception | handle
  · refine Or.inl ?_
    rw [ActionRequest.session_handled_of_throws hbegin]
    rfl
  · rw [ActionRequest.session_handled_of_begun hbegin]
    split_ifs with hsaves
    · refine Or.inr ⟨?_, ?_⟩
      · simpa [ActionRequest.next, ActionRequest.thrown] using (Bool.or_eq_false_iff.mp hsaves.1).1
      · rw [DocumentSession.saveChangesAsync, hleft, List.nil_append]
    · exact Or.inl hleft

end OneRequest

/-! ### Every interleaving -/

section Interleavings

variable [DecidableEq Document] (execute : Database → Command Key Document → Database)
  (initial : Database)

/-- The action has performed the steps while reading states of the database that the log leads to, and
the rest of its code is left. -/
def FollowsCode (log : List (Request × List (Change Key Document)))
    (request : ConcurrentRequest TId Key Document Database)
    (performed : List (BodyStep TId Key Document))
    (code : ActionCode TId Key Document Database) : Prop :=
  ∃ seen, Reads (DocumentSession.applyAll execute) initial log seen ∧
    request.code.follow seen = (performed, code)

/-- A request that is done has come to what the handler makes of it alone, for the steps its action has
performed: all of them, unless the transaction was not begun or the action has thrown. -/
structure Served (log : List (Request × List (Change Key Document)))
    (request : ConcurrentRequest TId Key Document Database)
    (performed : List (BodyStep TId Key Document)) (manager : TransactionManager Key Document) :
    Prop where
  handled_eq : manager = (request.alone performed).handled (TransactionManager.start {})
  follows : ∃ code, FollowsCode execute initial log request performed code ∧
    (code = .returns ∨ (∃ exception, request.begins.1 = .error exception) ∨
      (request.alone performed).thrown (TransactionManager.start {}) ≠ none)

/-- A log explains how far a request has come. -/
def RequestState.Explained (log : List (Request × List (Change Key Document)))
    (request : ConcurrentRequest TId Key Document Database) :
    RequestState TId Key Document Database → Prop
  | .arrived => True
  | .running manager performed code =>
    Performed request performed none manager ∧ FollowsCode execute initial log request performed code
  | .executed manager performed exception =>
    Performed request performed exception manager ∧
      ∃ code, FollowsCode execute initial log request performed code ∧
        (exception = none → code = .returns)
  | .ended performed manager => Served execute initial log request performed manager

/-- The log of the requests that are done: the database has taken what each of them has written, one
after the other, and the log explains how far every request has come. -/
structure SerialHistory (requests : Request → ConcurrentRequest TId Key Document Database)
    (server : Server Request TId Key Document Database)
    (log : List (Request × List (Change Key Document))) : Prop where
  nodup : (log.map Prod.fst).Nodup
  database_eq : server.database = stateAfter (DocumentSession.applyAll execute) initial log
  mem_iff : ∀ request changes, (request, changes) ∈ log ↔
    ∃ performed manager, server.state request = .ended performed manager ∧
      manager.session.written = changes
  explained : ∀ request, (server.state request).Explained execute initial log (requests request)

section Moves

variable {execute initial} {log : List (Request × List (Change Key Document))}
  {request : ConcurrentRequest TId Key Document Database}
  {performed : List (BodyStep TId Key Document)} {manager : TransactionManager Key Document}
  {code : ActionCode TId Key Document Database}

omit [DecidableEq Document] in
theorem followsCode_start : FollowsCode execute initial log request [] request.code :=
  ⟨[], reads_nil, request.code.follow_nil⟩

omit [DecidableEq Document] in
theorem FollowsCode.grow (hfollows : FollowsCode execute initial log request performed code)
    (more : List (Request × List (Change Key Document))) :
    FollowsCode execute initial (log ++ more) request performed code := by
  obtain ⟨seen, hreads, hfollow⟩ := hfollows
  exact ⟨seen, hreads.grow more, hfollow⟩

omit [DecidableEq Document] in
/-- The next step depends on what the database holds now. -/
theorem FollowsCode.step {perform : Database → BodyStep TId Key Document}
    {goOn : Database → ActionCode TId Key Document Database}
    (hfollows : FollowsCode execute initial log request performed (.step perform goOn)) :
    let database := stateAfter (DocumentSession.applyAll execute) initial log
    FollowsCode execute initial log request (performed ++ [perform database]) (goOn database) := by
  obtain ⟨seen, hreads, hfollow⟩ := hfollows
  exact ⟨_, hreads.read, ActionCode.follow_concat hfollow _⟩

/-- A longer log explains how far a request had come. -/
theorem RequestState.Explained.grow {state : RequestState TId Key Document Database}
    (hexplained : state.Explained execute initial log request)
    (more : List (Request × List (Change Key Document))) :
    state.Explained execute initial (log ++ more) request := by
  cases state with
  | arrived => trivial
  | running manager performed code => exact ⟨hexplained.1, hexplained.2.grow more⟩
  | executed manager performed exception =>
    obtain ⟨hperformed, code, hfollows, hcode⟩ := hexplained
    exact ⟨hperformed, code, hfollows.grow more, hcode⟩
  | ended performed manager =>
    obtain ⟨hhandled, code, hfollows, hcode⟩ := hexplained
    exact ⟨hhandled, code, hfollows.grow more, hcode⟩

/-- A request that is not done has written nothing. -/
theorem RequestState.Explained.written_eq {state : RequestState TId Key Document Database}
    (hexplained : state.Explained execute initial log request)
    (hrunning : ∀ performed manager, state ≠ .ended performed manager) : state.written = [] := by
  cases state with
  | arrived => rfl
  | running manager performed code => exact hexplained.1.written_eq
  | executed manager performed exception => exact hexplained.1.written_eq
  | ended performed manager => exact absurd rfl (hrunning performed manager)

theorem Performed.thrown_eq {exception : Option Exn}
    (hperformed : Performed request performed exception manager) :
    (request.alone performed).thrown (TransactionManager.start {}) = exception := by
  have hexception : (request.begins.2.session.body performed).1 = exception :=
    congrArg ActionExecutedContext.exception (Prod.mk.inj hperformed.next_eq).1
  rw [← hexception, ConcurrentRequest.begins, TransactionManager.beginTransaction_session]
  rfl

/-- After a move the log still explains how far the request has come. -/
theorem explained_move {state : RequestState TId Key Document Database}
    (hexplained : state.Explained execute initial log request) :
    (request.move (stateAfter (DocumentSession.applyAll execute) initial log) state).Explained execute
      initial log request := by
  cases state with
  | arrived =>
    rcases hbegins : request.begins with ⟨exception | handle, begun⟩
    · simp only [ConcurrentRequest.move, hbegins]
      refine ⟨(handled_of_throws hbegins).symm, request.code, followsCode_start, ?_⟩
      exact Or.inr (Or.inl ⟨exception, by rw [hbegins]⟩)
    · simp only [ConcurrentRequest.move, hbegins]
      refine ⟨⟨⟨handle, by rw [hbegins]⟩, ?_⟩, followsCode_start⟩
      rw [hbegins]
      rfl
  | running manager performed code =>
    obtain ⟨hperformed, hfollows⟩ := hexplained
    cases code with
    | returns => exact ⟨hperformed, .returns, hfollows, fun _ ↦ rfl⟩
    | step perform goOn =>
      have hconcat := hperformed.concat
        (perform (stateAfter (DocumentSession.applyAll execute) initial log))
      rcases hbody : manager.session.body
        [perform (stateAfter (DocumentSession.applyAll execute) initial log)] with ⟨_ | exception, session⟩
      all_goals
        rw [hbody] at hconcat
        simp only [ConcurrentRequest.move, hbody]
      · exact ⟨hconcat, hfollows.step⟩
      · exact ⟨hconcat, _, hfollows.step, nofun⟩
  | executed manager performed exception =>
    obtain ⟨hperformed, code, hfollows, hcode⟩ := hexplained
    refine ⟨hperformed.handled_eq.symm, code, hfollows, ?_⟩
    rw [hperformed.thrown_eq]
    cases exception with
    | none => exact Or.inl (hcode rfl)
    | some exception => exact Or.inr (Or.inr (Option.some_ne_none exception))
  | ended performed manager => exact hexplained

end Moves

section Served

variable [DecidableEq Request] {execute initial}
  {requests : Request → ConcurrentRequest TId Key Document Database}
  {server : Server Request TId Key Document Database}
  {log : List (Request × List (Change Key Document))}

omit [DecidableEq Request] in
/-- Before any request has moved nothing is logged. -/
theorem serialHistory_start : SerialHistory execute initial requests
    (Server.start initial : Server Request TId Key Document Database) [] where
  nodup := List.nodup_nil
  database_eq := rfl
  mem_iff := fun _ _ ↦ ⟨fun h ↦ absurd h List.not_mem_nil, fun ⟨_, _, hended, _⟩ ↦ absurd hended nofun⟩
  explained := fun _ ↦ trivial

omit [DecidableEq Request] in
/-- A request that is not done is not in the log. -/
theorem SerialHistory.not_mem (hhistory : SerialHistory execute initial requests server log)
    {request : Request} (hrunning : ∀ performed manager, server.state request ≠ .ended performed manager) :
    request ∉ log.map Prod.fst := by
  intro hmem
  obtain ⟨⟨request, changes⟩, hlogged, rfl⟩ := List.mem_map.mp hmem
  obtain ⟨performed, manager, hended, -⟩ := (hhistory.mem_iff request changes).mp hlogged
  exact hrunning performed manager hended

/-- The request that has moved is in the log with what it has written, once it is done, and the others
are as before. -/
theorem SerialHistory.concat (hhistory : SerialHistory execute initial requests server log)
    {request : Request} (hrunning : ∀ performed manager, server.state request ≠ .ended performed manager)
    {more : List (Request × List (Change Key Document))}
    {after : RequestState TId Key Document Database}
    (hafter : after.Explained execute initial (log ++ more) (requests request))
    (hmore : (∀ performed manager, after ≠ .ended performed manager) ∧ more = [] ∨
      ∃ performed manager, after = .ended performed manager ∧ more = [(request, manager.session.written)]) :
    SerialHistory execute initial requests
      { database := DocumentSession.applyAll execute server.database after.written
        state := Function.update server.state request after } (log ++ more) := by
  have hnew := hhistory.not_mem hrunning
  constructor
  · rcases hmore with ⟨-, rfl⟩ | ⟨performed, manager, -, rfl⟩
    · rw [List.append_nil]
      exact hhistory.nodup
    · rw [List.map_append, List.map_singleton, List.nodup_append]
      refine ⟨hhistory.nodup, List.pairwise_singleton _ _, ?_⟩
      rintro other hother last hlast rfl
      obtain rfl : other = request := List.mem_singleton.mp hlast
      exact hnew hother
  · rcases hmore with ⟨hstill, rfl⟩ | ⟨performed, manager, rfl, rfl⟩
    · rw [hafter.written_eq hstill, List.append_nil]
      exact hhistory.database_eq
    · rw [stateAfter_concat, ← hhistory.database_eq]
      rfl
  · intro other changes
    by_cases hother : other = request
    · subst hother
      have hold : (other, changes) ∉ log := fun hmem ↦ hnew (List.mem_map_of_mem hmem)
      rw [List.mem_append, or_iff_right hold]
      simp only [Function.update_self]
      rcases hmore with ⟨hstill, rfl⟩ | ⟨performed, manager, rfl, rfl⟩
      · refine iff_of_false List.not_mem_nil ?_
        rintro ⟨performed, manager, hended, -⟩
        exact hstill performed manager hended
      · constructor
        · intro hmem
          obtain ⟨-, rfl⟩ := Prod.mk.inj (List.mem_singleton.mp hmem)
          exact ⟨performed, manager, rfl, rfl⟩
        · rintro ⟨-, -, ⟨⟩, rfl⟩
          exact List.mem_singleton_self _
    · have hmem : (other, changes) ∈ log ++ more ↔ (other, changes) ∈ log := by
        refine ⟨fun h ↦ ?_, List.mem_append_left more⟩
        rcases List.mem_append.mp h with hold | hlast
        · exact hold
        · rcases hmore with ⟨-, rfl⟩ | ⟨performed, manager, -, rfl⟩
          · exact absurd hlast List.not_mem_nil
          · exact absurd (congrArg Prod.fst (List.mem_singleton.mp hlast)) hother
      rw [hmem, hhistory.mem_iff]
      simp only [Function.update_of_ne hother]
  · intro other
    by_cases hother : other = request
    · subst hother
      simp only [Function.update_self]
      exact hafter
    · simp only [Function.update_of_ne hother]
      exact (hhistory.explained other).grow more

/-- A move keeps the history, to which a request that is done by it is added. -/
theorem serialHistory_serve (hhistory : SerialHistory execute initial requests server log)
    (request : Request) :
    ∃ more, SerialHistory execute initial requests (server.serve execute requests request)
      (log ++ more) := by
  have hexplained := explained_move (hhistory.explained request)
  rw [← hhistory.database_eq] at hexplained
  by_cases hended : ∃ performed manager, server.state request = .ended performed manager
  · obtain ⟨performed, manager, hended⟩ := hended
    have hserve : server.serve execute requests request = server := by
      simp only [Server.serve, hended, ConcurrentRequest.move, List.drop_length,
        DocumentSession.applyAll, List.foldl_nil]
      rw [← hended, Function.update_eq_self]
    refine ⟨[], ?_⟩
    rw [hserve, List.append_nil]
    exact hhistory
  · push Not at hended
    have hserve : server.serve execute requests request =
        { database := DocumentSession.applyAll execute server.database
            ((requests request).move server.database (server.state request)).written
          state := Function.update server.state request
            ((requests request).move server.database (server.state request)) } := by
      have hnothing := (hhistory.explained request).written_eq hended
      simp only [Server.serve, hnothing, List.length_nil, List.drop_zero]
    rw [hserve]
    cases hafter : (requests request).move server.database (server.state request) with
    | ended performed manager =>
      rw [hafter] at hexplained
      exact ⟨_, hhistory.concat hended (hexplained.grow _) (Or.inr ⟨performed, manager, rfl, rfl⟩)⟩
    | _ =>
      rw [hafter] at hexplained
      exact ⟨[], hhistory.concat hended (hexplained.grow []) (Or.inl ⟨by simp, rfl⟩)⟩

/-- For every interleaving of the moves of any requests: the database is what the requests that are done
have written, one after the other in some order, every request has come to what it would have come to
alone on the states of the database it has read, each of them a state between two requests of that
order, and what a request has written is everything its action left pending, or nothing. -/
theorem serialHistory_run (execute : Database → Command Key Document → Database) (initial : Database)
    (requests : Request → ConcurrentRequest TId Key Document Database) (schedule : List Request) :
    let server := run (Server.serve execute requests) (Server.start initial) schedule
    ∃ log, SerialHistory execute initial requests server log ∧
      ∀ request changes, (request, changes) ∈ log → changes = [] ∨ ∃ performed manager,
        server.state request = .ended performed manager ∧
          ((requests request).alone performed).thrown (TransactionManager.start {}) = none ∧
          changes = (((requests request).alone performed).left (TransactionManager.start {})).pending := by
  intro server
  have hhistory : ∃ log, SerialHistory execute initial requests server log := by
    have hkeep : ∀ (before : Server Request TId Key Document Database) request,
        (∃ log, SerialHistory execute initial requests before log) →
        ∃ log, SerialHistory execute initial requests (before.serve execute requests request) log := by
      rintro before request ⟨log, hbefore⟩
      obtain ⟨more, hafter⟩ := serialHistory_serve hbefore request
      exact ⟨log ++ more, hafter⟩
    exact run_invariant hkeep ⟨[], serialHistory_start⟩ schedule
  obtain ⟨log, hhistory⟩ := hhistory
  refine ⟨log, hhistory, fun request changes hmem ↦ ?_⟩
  obtain ⟨performed, manager, hended, rfl⟩ := (hhistory.mem_iff request changes).mp hmem
  have hserved : Served execute initial log (requests request) performed manager := by
    have hexplained := hhistory.explained request
    rw [hended] at hexplained
    exact hexplained
  rw [hserved.handled_eq]
  rcases written_handled ((requests request).alone performed) with hnothing | ⟨hthrown, hpending⟩
  · exact Or.inl hnothing
  · exact Or.inr ⟨performed, manager, hended, hthrown, hpending⟩

end Served

end Interleavings

end SharpArch.Web
