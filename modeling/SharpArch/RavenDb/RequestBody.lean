import SharpArch.RavenDb.RavenDbRepository

/-!
# What an action does with its repositories

Besides the calls that register changes, an action evicts entities from the session and queries it.
An eviction drops the work pending on the entity, the commands deferred for its key excepted; a
query changes nothing, and may throw on what the server answers. `BodyStep` is one step of the body
of an action: a call, which may throw in the RavenDB client and whose exception the action may
catch, or an exception of its own. The body ends with the first exception that is not caught.

None of this writes to the database (`written_body`): what an action has changed is what it leaves
pending. The database is what the written changes have made of it (`DocumentSession.database`), and
a save applies all pending changes to it (`database_saveChangesAsync`).
-/

set_option autoImplicit false
set_option relaxedAutoImplicit false

namespace SharpArch.RavenDb

open Platform.SystemTransactions

variable {TId Key Document Database : Type}

/-! ### Evictions and queries -/

/-- The command is about an entity that is tracked by the session. -/
def Command.isAbout [DecidableEq Document] (document : Document) : Command Key Document → Bool
  | .put other => other = document
  | .delete other => other = document
  | .deferredDelete _ => false

/-- `Advanced.Evict`. -/
def DocumentSession.evict [DecidableEq Document] (document : Document)
    (session : DocumentSession Key Document) : DocumentSession Key Document :=
  { session with
    pending := session.pending.filter fun change ↦ !change.command.isAbout document }

namespace RavenDbRepository

/-- `EvictAsync`. -/
def evictAsync [DecidableEq Document] (entity : Document) (session : DocumentSession Key Document) :
    Except Exn Unit × DocumentSession Key Document :=
  (.ok (), session.evict entity)

/-- `SingleOrDefaultAsync` on what a query found, of which `FindOneAsync` of a specification is the
answer. -/
def singleOrDefaultAsync : List Document → Except Exn (Option Document)
  | [] => .ok none
  | [document] => .ok (some document)
  | _ => .error (.invalidOperation "Sequence contains more than one element")

/-- `FindOneAsync` of a predicate. -/
def findOneAsync (found : List Document) : Except Exn Document :=
  match singleOrDefaultAsync found with
  | .error exception => .error exception
  | .ok (some document) => .ok document
  | .ok none =>
    .error (.invalidOperation
      "The query returned more than one result. Please refine your query.")

/-- `FirstAsync`. -/
def firstAsync : List Document → Except Exn Document
  | [] => .error (.invalidOperation "The query returned no results. Please refine your query.")
  | document :: _ => .ok document

/-- A call that reads: `GetAsync` and the `FindOneAsync` of an identifier that calls it, or a query
with what the server finds for it. -/
inductive Query (TId Key Document : Type)
  | getAsync (repository : RavenDbRepository TId Key Document) (id : TId)
  | findOneBySpecificationAsync (found : List Document)
  | findOneAsync (found : List Document)
  | firstAsync (found : List Document)
  | findAllAsync (found : List Document)

/-- The documents a query answers. -/
def answerQuery (session : DocumentSession Key Document) :
    Query TId Key Document → Except Exn (List Document)
  | .getAsync repository id => .ok (repository.getAsync id session).toList
  | .findOneBySpecificationAsync found => (singleOrDefaultAsync found).map Option.toList
  | .findOneAsync found => (RavenDbRepository.findOneAsync found).map fun document ↦ [document]
  | .firstAsync found => (RavenDbRepository.firstAsync found).map fun document ↦ [document]
  | .findAllAsync found => .ok found

end RavenDbRepository

/-! ### The body of an action -/

/-- A repository call of an action. -/
inductive BodyCall (TId Key Document : Type)
  | change (call : RavenDbRepository.Call TId Key Document)
  | evictAsync (entity : Document)
  | read (query : RavenDbRepository.Query TId Key Document)

/-- A step of an action. A call that throws in the client has done nothing; `caught` says whether
the action goes on after a call that has thrown. -/
inductive BodyStep (TId Key Document : Type)
  | call (call : BodyCall TId Key Document) (sessionThrows : Option Exn) (caught : Bool)
  | throws (exception : Exn)

namespace BodyCall

variable [DecidableEq Document]

/-- The answer to a call that does not throw in the client, and the session after it. -/
def answer (session : DocumentSession Key Document) :
    BodyCall TId Key Document → Except Exn Unit × DocumentSession Key Document
  | .change call => RavenDbRepository.answer session call
  | .evictAsync entity => RavenDbRepository.evictAsync entity session
  | .read query => ((RavenDbRepository.answerQuery session query).map fun _ ↦ (), session)

/-- No call writes to the database. -/
theorem written_answer (session : DocumentSession Key Document) (call : BodyCall TId Key Document) :
    (answer session call).2.written = session.written := by
  cases call with
  | change call =>
    rcases RavenDbRepository.answer_cases session call with
      ⟨command, hanswer⟩ | ⟨exception, hanswer⟩
    · exact congrArg (fun answered ↦ answered.2.written) hanswer
    · exact congrArg (fun answered ↦ answered.2.written) hanswer
  | evictAsync entity => rfl
  | read query => rfl

end BodyCall

namespace DocumentSession

variable [DecidableEq Document]

/-- The exception an action ends with, and the session it leaves. -/
def body (session : DocumentSession Key Document) :
    List (BodyStep TId Key Document) → Option Exn × DocumentSession Key Document
  | [] => (none, session)
  | .throws exception :: _ => (some exception, session)
  | .call _ (some exception) caught :: rest =>
    if caught then session.body rest else (some exception, session)
  | .call call none caught :: rest =>
    match call.answer session with
    | (.ok _, called) => called.body rest
    | (.error exception, called) => if caught then called.body rest else (some exception, called)

/-- An action writes nothing to the database, wherever it stops. -/
theorem written_body (session : DocumentSession Key Document)
    (steps : List (BodyStep TId Key Document)) :
    (session.body steps).2.written = session.written := by
  induction steps generalizing session with
  | nil => rfl
  | cons step rest ih =>
    cases step with
    | throws exception => rfl
    | call call sessionThrows caught =>
      cases sessionThrows with
      | some exception =>
        simp only [body]
        split_ifs
        · exact ih session
        · rfl
      | none =>
        have hwritten := call.written_answer session
        simp only [body]
        rcases hanswer : call.answer session with ⟨exception | _, called⟩ <;>
          rw [hanswer] at hwritten
        · dsimp only
          split_ifs
          · rw [ih called, hwritten]
          · exact hwritten
        · rw [ih called, hwritten]

/-! ### The database -/

variable (execute : Database → Command Key Document → Database)

/-- The database the changes make of one, when the server executes their commands in order. -/
def applyAll (database : Database) (changes : List (Change Key Document)) : Database :=
  changes.foldl (fun made change ↦ execute made change.command) database

/-- The database, from what it held before the first of the changes it has taken. -/
def database (initial : Database) (session : DocumentSession Key Document) : Database :=
  applyAll execute initial session.written

omit [DecidableEq Document] in
/-- A save applies all pending changes. -/
theorem database_saveChangesAsync (initial : Database) (session : DocumentSession Key Document) :
    session.saveChangesAsync.database execute initial =
      applyAll execute (session.database execute initial) session.pending := by
  simp only [database, applyAll, saveChangesAsync, List.foldl_append]

end DocumentSession

end SharpArch.RavenDb
