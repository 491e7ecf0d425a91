import Mathlib.Data.List.Sort
import SharpArch.Platform.DateTime
import SharpArch.Web.NHibernateRequest

/-!
# The announcements of the web API

A request to `AnnouncementsController` is answered by an action over the repository, wrapped into a
transaction by the handler, over a session of its own; an exception of the action or of the handler
becomes the answer. Whatever else the request meets are its `Circumstances`: the calls of the manager, the
session and the database may fail.

The API is a store of announcements: the requests that are not answered with an exception are answered
as a store answers them that never fails, and the others leave no trace (`serveAll_answered`). So an
announcement whose creation was acknowledged is there until its deletion is (`get_after_created`).
-/

set_option autoImplicit false
set_option relaxedAutoImplicit false

namespace SharpArch.TardisBank

open Foundation.DeferredSession Foundation.Run Platform Platform.SystemTransactions NHibernate Web
open Domain.PersistenceSupport

/-- `Announcement`. -/
structure Announcement where
  id : ℤ
  date : DateTime
  title : Option String
  content : Option String
  lastModifiedUtc : DateTime
  deriving DecidableEq

/-- What the table keeps: the type of its date column is `date`. -/
def Announcement.column (announcement : Announcement) : Announcement :=
  { announcement with date := announcement.date.date }

/-- `NewAnnouncement`. -/
structure NewAnnouncement where
  date : DateTime
  title : Option String
  content : Option String

/-- `AnnouncementSummary`. -/
structure AnnouncementSummary where
  id : ℤ
  date : DateTime
  title : Option String
  deriving DecidableEq

/-- `AnnouncementModel`. -/
structure AnnouncementModel extends AnnouncementSummary where
  content : Option String
  deriving DecidableEq

/-! ### The mapping profile -/

namespace AnnouncementMappingProfile

def announcementSummary (announcement : Announcement) : AnnouncementSummary where
  id := announcement.id
  date := announcement.date
  title := announcement.title

def announcementModel (announcement : Announcement) : AnnouncementModel where
  toAnnouncementSummary := announcementSummary announcement
  content := announcement.content

/-- `Map` of a `NewAnnouncement`, with the identifier that `Save` assigns. -/
def announcement (utcNow : DateTime) (id : ℤ) (model : NewAnnouncement) : Announcement where
  id := id
  date := model.date
  title := model.title
  content := model.content
  lastModifiedUtc := utcNow

end AnnouncementMappingProfile

open AnnouncementMappingProfile

/-! ### The controller -/

/-- A request to the controller. Posting comes with the identifier that the new announcement is assigned
and the time. -/
inductive ApiCall
  | getAll
  | get (id : ℤ)
  | post (model : NewAnnouncement) (id : ℤ) (utcNow : DateTime)
  | delete (id : ℤ)
  | latest

inductive ActionResult
  | announcements (summaries : List AnnouncementSummary)
  | announcement (model : AnnouncementModel)
  | notFound (id : ℤ)
  | created (location : ℤ) (announcement : Announcement)
  | noContent
  deriving DecidableEq

/-- The answer to a request. -/
inductive Response
  | badRequest
  | result (result : ActionResult)
  | exception (exception : SystemTransactions.Exn)
  deriving DecidableEq

def Response.isException : Response → Bool
  | .exception _ => true
  | _ => false

/-- `OrderByDescending(a => a.Date)`. -/
def orderByDescendingDate (announcements : List Announcement) : List Announcement :=
  announcements.insertionSort fun first second ↦ second.date ≤ first.date

/-- The rows that the database finds, in an order of its own. -/
abbrev Rows := Contents Announcement.id → List Announcement

namespace AnnouncementsController

/-- What an action does with the session. -/
def action : ApiCall → SessionAction Announcement.id
  | .getAll => .call (.repository (.query fun _ ↦ true))
  | .get id => .call (.repository (.getAsync id))
  | .post model id utcNow =>
    .call (.repository (.saveAsync (some (announcement utcNow id model).column)))
  | .delete id => .call (.repository (.deleteByIdAsync id))
  | .latest => .call (.repository (.query fun _ ↦ true))

/-- What an action returns that works on a session. -/
def result (rows : Rows) (session : ISession Announcement.id) : ApiCall → ActionResult
  | .getAll =>
    .announcements ((orderByDescendingDate (rows (session.query fun _ ↦ true).stored)).map
      announcementSummary)
  | .get id =>
    match (NHibernateRepository.getAsync id session).1 with
    | some found => .announcement (announcementModel found)
    | none => .notFound id
  | .post model id utcNow => .created id (announcement utcNow id model)
  | .delete _ => .noContent
  | .latest =>
    .announcements (((orderByDescendingDate (rows (session.query fun _ ↦ true).stored)).take 10).map
      announcementSummary)

end AnnouncementsController

/-- Whether the model of a request is valid, and what fails while it is served. -/
structure Circumstances where
  modelStateIsValid : Bool := true
  beginThrows : Option SystemTransactions.Exn := none
  actionFails : Option (SystemTransactions.Exn × Foundation.DeferredSession.Session Announcement.id) := none
  commit : ISession Announcement.id → CommitEnding Announcement.id := fun _ ↦ .returns
  rollbackThrows : Option SystemTransactions.Exn := none

/-- The request as the handler sees it. -/
def wrapped (call : ApiCall) (circumstances : Circumstances) : NHibernateRequest Announcement.id where
  settings := { isolationLevel := .readCommitted }
  beginThrows := circumstances.beginThrows
  steps :=
    match circumstances.actionFails with
    | some (exception, after) => [{ action := .fails exception after }]
    | none => [{ action := AnnouncementsController.action call }]
  modelStateIsValid := true
  commit := circumstances.commit
  rollbackThrows := circumstances.rollbackThrows

/-- The answer to a request over the database, and the database after it. A model that is not valid is
answered before the handler is asked. -/
def serve (flushesBeforeQueries : Bool) (rows : Rows) (held : Contents Announcement.id)
    (request : ApiCall × Circumstances) : Response × Contents Announcement.id :=
  if request.2.modelStateIsValid then
    let session := ISession.opened flushesBeforeQueries held
    let wrapping := wrapped request.1 request.2
    let response : Response :=
      match wrapping.outcome session with
      | .error exception => .exception exception
      | .ok _ => .result (AnnouncementsController.result rows (wrapping.begun session) request.1)
    (response, wrapping.after flushesBeforeQueries held)
  else (.badRequest, held)

/-- Requests with their answers, and the database after them. -/
def serveAll (flushesBeforeQueries : Bool) (rows : Rows) :
    Contents Announcement.id → List (ApiCall × Circumstances) →
      List ((ApiCall × Circumstances) × Response) × Contents Announcement.id
  | held, [] => ([], held)
  | held, request :: rest =>
    let served := serve flushesBeforeQueries rows held request
    let (others, last) := serveAll flushesBeforeQueries rows served.2 rest
    ((request, served.1) :: others, last)

/-! ### The store of announcements -/

/-- The answer of a store that never fails, and the store after it. -/
def store (rows : Rows) (held : Contents Announcement.id) :
    ApiCall → ActionResult × Contents Announcement.id
  | .getAll => (.announcements ((orderByDescendingDate (rows held)).map announcementSummary), held)
  | .get id =>
    (((held.find id).map fun found ↦ .announcement (announcementModel found)).getD (.notFound id), held)
  | .post model id utcNow =>
    (.created id (announcement utcNow id model),
      held.execute (.put (announcement utcNow id model).column))
  | .delete id => (.noContent, if (held.find id).isSome then held.execute (.remove id) else held)
  | .latest =>
    (.announcements (((orderByDescendingDate (rows held)).take 10).map announcementSummary), held)

/-- The answers of the store to requests, and the store after them. Requests whose model is not valid are
told so. -/
def storeAll (rows : Rows) : Contents Announcement.id → List (ApiCall × Bool) →
    List Response × Contents Announcement.id
  | held, [] => ([], held)
  | held, (call, modelStateIsValid) :: rest =>
    if modelStateIsValid then
      let (others, last) := storeAll rows (store rows held call).2 rest
      (.result (store rows held call).1 :: others, last)
    else
      let (others, last) := storeAll rows held rest
      (.badRequest :: others, last)

/-! ### One request -/

variable {flushesBeforeQueries : Bool} {rows : Rows} {held : Contents Announcement.id} {call : ApiCall}
  {circumstances : Circumstances}

theorem wrapped_not_endsTransaction :
    ∀ step ∈ (wrapped call circumstances).steps, ¬ step.action.EndsTransaction := by
  unfold wrapped
  cases circumstances.actionFails with
  | some failure => simp [SessionAction.EndsTransaction, SessionAction.IsCommit]
  | none =>
    cases call <;>
      simp [AnnouncementsController.action, SessionAction.EndsTransaction, SessionAction.IsCommit]

/-- The session in which an action starts holds the database. -/
theorem begun_opened : ((wrapped call circumstances).begun (ISession.opened flushesBeforeQueries held)) =
    { ISession.opened flushesBeforeQueries held with transaction := some held } := rfl

/-- A query that has nothing to flush reads the database. -/
theorem stored_query_begun : (((wrapped call circumstances).begun
    (ISession.opened flushesBeforeQueries held)).query fun _ ↦ true).stored = held := by
  rw [begun_opened]
  unfold ISession.query
  split_ifs <;> rfl

/-- What an action returns is what the store answers. -/
theorem result_begun : AnnouncementsController.result rows
    ((wrapped call circumstances).begun (ISession.opened flushesBeforeQueries held)) call =
      (store rows held call).1 := by
  cases call with
  | getAll => simp only [AnnouncementsController.result, stored_query_begun, store]
  | latest => simp only [AnnouncementsController.result, stored_query_begun, store]
  | post model id utcNow => rfl
  | delete id => rfl
  | get id =>
    have hget : (NHibernateRepository.getAsync id ((wrapped (.get id) circumstances).begun
        (ISession.opened flushesBeforeQueries held))).1 = held.find id := rfl
    simp only [AnnouncementsController.result, hget, store]
    cases held.find id <;> rfl

/-- What the session of an action that has returned holds and has still to write is the store. -/
theorem stored_flush_action (call : ApiCall) (circumstances : Circumstances) :
    ((((wrapped call circumstances).begun (ISession.opened flushesBeforeQueries held)).perform
      (AnnouncementsController.action call)).2.flushAsync).stored = (store rows held call).2 := by
  rw [begun_opened]
  cases call with
  | post model id utcNow => rfl
  | get id => rfl
  | getAll => cases flushesBeforeQueries <;> rfl
  | latest => cases flushesBeforeQueries <;> rfl
  | delete id =>
    have hdelete (session : ISession Announcement.id) :
        (session.perform (AnnouncementsController.action (.delete id))).2 =
          (NHibernateRepository.deleteByIdAsync id session).2 := rfl
    have hget : ISession.get id { ISession.opened flushesBeforeQueries held with
        transaction := some held } = held.find id := rfl
    rw [hdelete, store]
    cases hfound : held.find id with
    | none =>
      rw [NHibernateRepository.deleteByIdAsync_of_none (hget.trans hfound)]
      rfl
    | some found =>
      have hid : found.id = id := held.keyOf_eq id found hfound
      rw [NHibernateRepository.deleteByIdAsync_of_some (hget.trans hfound), ← hid]
      rfl

/-- A request that is committed is one whose action has returned, and leaves the store. -/
theorem after_of_commits (hcommits : (wrapped call circumstances).commits
    (ISession.opened flushesBeforeQueries held) = true) :
    (wrapped call circumstances).after flushesBeforeQueries held = (store rows held call).2 := by
  rw [NHibernateRequest.after_of_commits hcommits]
  simp only [NHibernateRequest.commits, Bool.and_eq_true, Option.isNone_iff_eq_none] at hcommits
  obtain ⟨⟨⟨hbegins, -⟩, hrolls⟩, -⟩ := hcommits
  have hleft : (wrapped call circumstances).left (ISession.opened flushesBeforeQueries held) =
      ((wrapped call circumstances).next ((wrapped call circumstances).begun
        (ISession.opened flushesBeforeQueries held))).2 := by
    simp [NHibernateRequest.left, hbegins]
  rw [hleft, ← stored_flush_action call circumstances]
  cases hfails : circumstances.actionFails with
  | some failure =>
    -- The action has thrown, and the handler would have rolled back.
    obtain ⟨exception, after⟩ := failure
    have hthrown : ((wrapped call circumstances).next ((wrapped call circumstances).begun
        (ISession.opened flushesBeforeQueries held))).1.exception = some exception := by
      simp [NHibernateRequest.next, wrapped, hfails, ISession.body, ISession.perform]
    simp [AutoTransactionHandler.rollsBack, hthrown] at hrolls
  | none =>
    have hsteps : (wrapped call circumstances).steps =
        [{ action := AnnouncementsController.action call }] := by
      simp [wrapped, hfails]
    simp only [NHibernateRequest.next, hsteps]
    rw [ISession.body]
    cases ((wrapped call circumstances).begun (ISession.opened flushesBeforeQueries held)).perform
      (AnnouncementsController.action call) with
    | mk answer performed => cases answer <;> rfl

/-- A request with a valid model is answered with an exception and leaves the database as it was, or is
answered like the store and leaves the store. -/
theorem serve_cases (flushesBeforeQueries : Bool) (rows : Rows) (held : Contents Announcement.id)
    (call : ApiCall) (hvalid : circumstances.modelStateIsValid = true) :
    (serve flushesBeforeQueries rows held (call, circumstances)).1.isException = true ∧
        (serve flushesBeforeQueries rows held (call, circumstances)).2 = held ∨
      serve flushesBeforeQueries rows held (call, circumstances) =
        (.result (store rows held call).1, (store rows held call).2) := by
  have hserve : serve flushesBeforeQueries rows held (call, circumstances) =
      (match (wrapped call circumstances).outcome (ISession.opened flushesBeforeQueries held) with
        | .error exception => .exception exception
        | .ok _ => .result (AnnouncementsController.result rows ((wrapped call circumstances).begun
            (ISession.opened flushesBeforeQueries held)) call),
        (wrapped call circumstances).after flushesBeforeQueries held) := by
    simp only [serve, hvalid, if_true]
  rw [hserve]
  have hiff : (wrapped call circumstances).outcome (ISession.opened flushesBeforeQueries held) = .ok () ↔
      (wrapped call circumstances).commits (ISession.opened flushesBeforeQueries held) = true :=
    NHibernateRequest.outcome_eq_ok_iff wrapped_not_endsTransaction rfl
  cases houtcome : (wrapped call circumstances).outcome (ISession.opened flushesBeforeQueries held) with
  | error exception =>
    rw [houtcome] at hiff
    refine Or.inl ⟨rfl, NHibernateRequest.after_of_not_commits wrapped_not_endsTransaction ?_⟩
    exact mt hiff.mpr (by simp)
  | ok returned =>
    rw [houtcome] at hiff
    have hcommits := hiff.mp rfl
    exact Or.inr (Prod.ext (congrArg Response.result result_begun) (after_of_commits hcommits))

/-! ### Histories -/

theorem serve_of_not_valid (hvalid : circumstances.modelStateIsValid = false) :
    serve flushesBeforeQueries rows held (call, circumstances) = (.badRequest, held) := by
  simp [serve, hvalid]

/-- For every history of requests, whatever fails in it: those that are not answered with an exception are
answered as the store answers them alone, and the database is that store. -/
theorem serveAll_answered (flushesBeforeQueries : Bool) (rows : Rows) (held : Contents Announcement.id)
    (history : List (ApiCall × Circumstances)) :
    let served := serveAll flushesBeforeQueries rows held history
    let answered := served.1.filter fun entry ↦ !entry.2.isException
    storeAll rows held (answered.map fun entry ↦ (entry.1.1, entry.1.2.modelStateIsValid)) =
      (answered.map Prod.snd, served.2) := by
  induction history generalizing held with
  | nil => rfl
  | cons request rest ih =>
    obtain ⟨call, circumstances⟩ := request
    intro served answered
    have hanswered : answered =
        (((call, circumstances), (serve flushesBeforeQueries rows held (call, circumstances)).1) ::
          (serveAll flushesBeforeQueries rows
            (serve flushesBeforeQueries rows held (call, circumstances)).2 rest).1).filter
              fun entry ↦ !entry.2.isException := rfl
    have hlast : served.2 = (serveAll flushesBeforeQueries rows
        (serve flushesBeforeQueries rows held (call, circumstances)).2 rest).2 := rfl
    rw [hanswered, hlast]
    cases hvalid : circumstances.modelStateIsValid with
    | false =>
      rw [serve_of_not_valid hvalid, List.filter_cons_of_pos rfl, List.map_cons, List.map_cons]
      simp only [storeAll, hvalid, Bool.false_eq_true, if_false, ih held]
    | true =>
      rcases serve_cases flushesBeforeQueries rows held call hvalid with ⟨hexception, hsame⟩ | hstore
      · rw [List.filter_cons_of_neg (by simp [hexception]), hsame]
        exact ih held
      · rw [hstore, List.filter_cons_of_pos rfl, List.map_cons, List.map_cons]
        simp only [storeAll, hvalid, if_true, ih (store rows held call).2]

/-- A request that may change the announcement with an identifier. -/
def ApiCall.Concerns (id : ℤ) : ApiCall → Prop
  | .post _ posted _ => posted = id
  | .delete deleted => deleted = id
  | _ => False

theorem find_store (id : ℤ) (hother : ¬ call.Concerns id) :
    (store rows held call).2.find id = held.find id := by
  cases call with
  | post model posted utcNow =>
    exact Contents.find_execute_of_ne hother
  | delete deleted =>
    simp only [store]
    split_ifs
    · exact Contents.find_execute_of_ne hother
    · rfl
  | _ => rfl

/-- The database after a request of a history. -/
abbrev databaseAfter (flushesBeforeQueries : Bool) (rows : Rows) (held : Contents Announcement.id)
    (request : ApiCall × Circumstances) : Contents Announcement.id :=
  (serve flushesBeforeQueries rows held request).2

/-- A request leaves an announcement as it was unless it concerns the announcement and is answered with a
result. -/
theorem find_databaseAfter (id : ℤ) (request : ApiCall × Circumstances)
    (hother : request.1.Concerns id →
      ∀ result, (serve flushesBeforeQueries rows held request).1 ≠ .result result) :
    (databaseAfter flushesBeforeQueries rows held request).find id = held.find id := by
  obtain ⟨call, circumstances⟩ := request
  cases hvalid : circumstances.modelStateIsValid with
  | false => rw [databaseAfter, serve_of_not_valid hvalid]
  | true =>
    rcases serve_cases flushesBeforeQueries rows held call hvalid with ⟨-, hsame⟩ | hstore
    · rw [databaseAfter, hsame]
    · rw [databaseAfter, hstore]
      rw [hstore] at hother
      exact find_store id fun hconcerns ↦ hother hconcerns _ rfl

/-- A request that is answered with a result is answered like the store, and leaves it. -/
theorem serve_of_result {result : ActionResult}
    (hresult : (serve flushesBeforeQueries rows held (call, circumstances)).1 = .result result) :
    serve flushesBeforeQueries rows held (call, circumstances) =
      (.result (store rows held call).1, (store rows held call).2) := by
  cases hvalid : circumstances.modelStateIsValid with
  | false =>
    rw [serve_of_not_valid hvalid] at hresult
    exact absurd hresult (by simp)
  | true =>
    rcases serve_cases flushesBeforeQueries rows held call hvalid with ⟨hexception, -⟩ | hstore
    · rw [hresult] at hexception
      exact absurd hexception (by simp [Response.isException])
    · exact hstore

/-- The model of a request is valid, and nothing fails while it is served. -/
structure Circumstances.Fine (circumstances : Circumstances) : Prop where
  modelStateIsValid : circumstances.modelStateIsValid = true
  beginThrows : circumstances.beginThrows = none
  actionFails : circumstances.actionFails = none
  commit : ∀ session, circumstances.commit session = .returns

/-- No action throws by itself. -/
theorem perform_action (session : ISession Announcement.id) (call : ApiCall) :
    (session.perform (AnnouncementsController.action call)).1 = .ok () := by
  cases call with
  | delete id =>
    have hdelete : (session.perform (AnnouncementsController.action (.delete id))).1 =
        (NHibernateRepository.deleteByIdAsync id session).1 := rfl
    rw [hdelete]
    cases hfound : session.get id with
    | none => rw [NHibernateRepository.deleteByIdAsync_of_none hfound]
    | some found =>
      rw [NHibernateRepository.deleteByIdAsync_of_some hfound]
      rfl
  | _ => rfl

theorem commits_of_fine (flushesBeforeQueries : Bool) (held : Contents Announcement.id) (call : ApiCall)
    (hfine : circumstances.Fine) :
    (wrapped call circumstances).commits (ISession.opened flushesBeforeQueries held) = true := by
  have hsteps : (wrapped call circumstances).steps = [{ action := AnnouncementsController.action call }] := by
    simp [wrapped, hfine.actionFails]
  have hbegins : (wrapped call circumstances).beginThrows = none := hfine.beginThrows
  have hcommit : ∀ session, (wrapped call circumstances).commit session = .returns := hfine.commit
  have hopen : (((wrapped call circumstances).begun (ISession.opened flushesBeforeQueries held)).body
      (wrapped call circumstances).steps).2.transaction = some held :=
    ISession.transaction_body rfl wrapped_not_endsTransaction
  have hexception : (((wrapped call circumstances).begun
      (ISession.opened flushesBeforeQueries held)).body (wrapped call circumstances).steps).1 = none := by
    have hperform := perform_action
      ((wrapped call circumstances).begun (ISession.opened flushesBeforeQueries held)) call
    rw [hsteps, ISession.body]
    split
    · rfl
    · next exception performed hthrows =>
      rw [hthrows] at hperform
      cases hperform
  have hrolls : AutoTransactionHandler.rollsBack (wrapped call circumstances).settings
      ((wrapped call circumstances).next ((wrapped call circumstances).begun
        (ISession.opened flushesBeforeQueries held))).1 = false := by
    have hmodel : (wrapped call circumstances).modelStateIsValid = true := rfl
    simp [AutoTransactionHandler.rollsBack, NHibernateRequest.next, hexception, hmodel]
  have hleft : (wrapped call circumstances).left (ISession.opened flushesBeforeQueries held) =
      ((wrapped call circumstances).next ((wrapped call circumstances).begun
        (ISession.opened flushesBeforeQueries held))).2 := by
    simp [NHibernateRequest.left, hbegins]
  have hisOpen : ((wrapped call circumstances).left
      (ISession.opened flushesBeforeQueries held)).transaction.isSome = true := by
    rw [hleft, NHibernateRequest.next, hopen]
    rfl
  rw [NHibernateRequest.commits, hisOpen, hrolls, hbegins, hcommit]
  rfl

/-- A request that nothing fails for is answered like the store. -/
theorem serve_of_fine (hfine : circumstances.Fine) :
    serve flushesBeforeQueries rows held (call, circumstances) =
      (.result (store rows held call).1, (store rows held call).2) := by
  refine (serve_cases flushesBeforeQueries rows held call hfine.modelStateIsValid).resolve_left ?_
  rintro ⟨hexception, -⟩
  have houtcome := (NHibernateRequest.outcome_eq_ok_iff wrapped_not_endsTransaction rfl).mpr
    (commits_of_fine flushesBeforeQueries held call hfine)
  simp [serve, hfine.modelStateIsValid, houtcome, Response.isException] at hexception

/-- Once a posted announcement has been acknowledged, and as long as no other request that concerns it is:
asking for it is answered with what was posted, the time of its day aside, whatever else is requested in
between and whatever fails, unless asking itself fails. -/
theorem get_after_created (flushesBeforeQueries : Bool) (rows : Rows) (held : Contents Announcement.id)
    (model : NewAnnouncement) (id : ℤ) (utcNow : DateTime) (posting getting : Circumstances)
    (between : List (ApiCall × Circumstances)) (created : ActionResult)
    (hcreated : (serve flushesBeforeQueries rows held (.post model id utcNow, posting)).1 = .result created)
    (hothers : EveryCall (databaseAfter flushesBeforeQueries rows)
      (fun held request ↦ request.1.Concerns id →
        ∀ result, (serve flushesBeforeQueries rows held request).1 ≠ .result result)
      (databaseAfter flushesBeforeQueries rows held (.post model id utcNow, posting)) between) :
    let response := (serve flushesBeforeQueries rows
      (run (databaseAfter flushesBeforeQueries rows)
        (databaseAfter flushesBeforeQueries rows held (.post model id utcNow, posting)) between)
      (.get id, getting)).1
    created = .created id (announcement utcNow id model) ∧
      (∀ result, response = .result result →
        result = .announcement (announcementModel (announcement utcNow id model).column)) ∧
      (getting.Fine →
        response = .result (.announcement (announcementModel (announcement utcNow id model).column))) := by
  intro response
  have hposted := serve_of_result hcreated
  have hfound : (databaseAfter flushesBeforeQueries rows held (.post model id utcNow, posting)).find id =
      some (announcement utcNow id model).column := by
    rw [databaseAfter, hposted]
    exact Contents.find_execute_self held (.put (announcement utcNow id model).column)
  have hkeep : ∀ (held : Contents Announcement.id) (request : ApiCall × Circumstances),
      held.find id = some (announcement utcNow id model).column →
      (request.1.Concerns id →
        ∀ result, (serve flushesBeforeQueries rows held request).1 ≠ .result result) →
      (databaseAfter flushesBeforeQueries rows held request).find id =
        some (announcement utcNow id model).column :=
    fun held request hheld hother ↦ (find_databaseAfter id request hother).trans hheld
  have hstays : (run (databaseAfter flushesBeforeQueries rows) (databaseAfter flushesBeforeQueries rows held
      (.post model id utcNow, posting)) between).find id = some (announcement utcNow id model).column :=
    run_invariant_of_everyCall hkeep hfound between hothers
  have hstored : (store rows (run (databaseAfter flushesBeforeQueries rows) (databaseAfter
      flushesBeforeQueries rows held (.post model id utcNow, posting)) between) (.get id)).1 =
        .announcement (announcementModel (announcement utcNow id model).column) := by
    rw [store, hstays]
    rfl
  refine ⟨?_, fun result hresult ↦ ?_, fun hfine ↦ ?_⟩
  · rw [hposted] at hcreated
    exact (Response.result.inj hcreated).symm
  · have hget := congrArg Prod.fst (serve_of_result hresult)
    exact (Response.result.inj (hget.symm.trans hresult)).symm.trans hstored
  · rw [← hstored]
    exact congrArg Prod.fst (serve_of_fine hfine)

/-- An announcement, a deletion of it whose commit fails, and the announcement again. -/
theorem get_after_created_twice :
    let day : DateTime := ⟨2024, 2, 29, 5, by decide, by decide, by decide, by decide⟩
    let model : NewAnnouncement := ⟨day, some "Closed", some "on Friday"⟩
    let held : Contents Announcement.id := Contents.empty Announcement.id
    let rows : Rows := fun _ ↦ []
    let failing : Circumstances :=
      { commit := fun session ↦ CommitEnding.throws (.invalidOperation "deadlock") session.toSession }
    let between : List (ApiCall × Circumstances) := [(.delete 1, failing)]
    let created : ActionResult := .created 1 (announcement day 1 model)
    (serve true rows held (.post model 1 day, {})).1 = .result created ∧
      (serve true rows (run (databaseAfter true rows)
        (databaseAfter true rows held (.post model 1 day, {})) between) (.get 1, {})).1 =
          .result (.announcement (announcementModel (announcement day 1 model).column)) := by
  intro day model held rows failing between created
  have hcreated : (serve true rows held (.post model 1 day, {})).1 = .result created := rfl
  have hfails : (serve true rows (databaseAfter true rows held (.post model 1 day, {}))
      (.delete 1, failing)).1 = .exception (.invalidOperation "deadlock") := rfl
  refine ⟨hcreated, (get_after_created true rows held model 1 day {} {} between created hcreated
    ⟨fun _ result hresult ↦ ?_, trivial⟩).2.2 ⟨rfl, rfl, rfl, fun _ ↦ rfl⟩⟩
  exact absurd (hfails.symm.trans hresult) (by simp)

end SharpArch.TardisBank
