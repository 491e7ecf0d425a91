import SharpArch.Foundation.KeyedTable
import SharpArch.NHibernate.SessionFactoryBuilder
import SharpArch.TardisBank.Users

/-!
# The users of the website

Parents register at the website, follow the link in the e-mail they are sent, and log in; they add and
remove children, who log in as well. Passwords are changed, or replaced by new ones that are e-mailed.
`serve` is what a request to one of these actions of `UserController`, `PasswordController`,
`AdminController` and `ChildController` answers and what it does to the stored users and the e-mails sent.

The controllers were written for an earlier release, whose user service answers at once and whose
`TransactionAttribute` is not among the sources. Both are parameters. `IUserService.Documented` says what
the controllers expect of the service, and the `UserService` that there is does that when its tasks are
awaited (`UserService.documented`). Of the attribute only this is built in, that it is a unit of work, as it
is documented: it commits all of what an action did to the users or nothing. When it does which is up to the
attribute.

How the database compares texts is left open: `collate` says which texts are the same to it.
-/

set_option autoImplicit false
set_option relaxedAutoImplicit false

namespace SharpArch.TardisBank

open Foundation.KeyedTable NHibernate.SessionFactories

/-- What a user is: a parent with its activation key, or a child of the parent with an identifier. -/
inductive Role
  | parent (activationKey : String)
  | child (parentId : ℤ)
  deriving DecidableEq

/-- A user as it is stored. -/
structure StoredUser where
  id : ℤ
  user : User
  role : Role
  deriving DecidableEq

namespace StoredUser

/-- `Activate`, which `Parent` overrides. -/
def activate (stored : StoredUser) : StoredUser :=
  { stored with
    user := { stored.user with isActive := true }
    role :=
      match stored.role with
      | .parent _ => .parent ""
      | .child parentId => .child parentId }

def resetPassword (newPassword : String) (stored : StoredUser) : StoredUser :=
  { stored with user := { stored.user with password := newPassword } }

def getRoles (stored : StoredUser) : List String :=
  match stored.role with
  | .parent _ => ["Parent"]
  | .child _ => ["Child"]

end StoredUser

structure Email where
  toAddress : String
  subject : String
  body : String
  deriving DecidableEq

/-- The stored users, the last identifier that was given to one, and the e-mails that were sent. -/
structure Website where
  users : List StoredUser := []
  lastId : ℤ := 0
  sent : List Email := []
  deriving DecidableEq

namespace Website

/-- `TardisConfiguration` as far as it decides whether e-mails are sent,
`HashPasswordForStoringInConfigFile`, and the comparison of texts in the database. -/
structure Settings (Text : Type) where
  emailSmtpServer : Option String
  hashPasswordForStoringInConfigFile : String → String
  collate : String → Text

/-- What actions throw: the exceptions of the domain and the services, that of a null reference, that of
the client which sends e-mails, and that of a commit. -/
inductive WebException
  | bank (exception : Exn)
  | nullReference
  | smtp
  | commit
  deriving DecidableEq

structure RegistrationViewModel where
  email : String
  name : String
  password : String
  deriving DecidableEq

/-- The requests. A null stands for what has not been bound. -/
inductive Request
  | register (model : Option RegistrationViewModel)
  | activate (id : Option String)
  | login (name password : String)
  | forgot (userName : Option String)
  | changePassword (oldPassword newPassword : String)
  | addChild (model : Option RegistrationViewModel)
  | deleteChild (childId : ℤ)
  | deleteParent
  deriving DecidableEq

/-- What a request comes with: the name it is authenticated by, whether its model is valid, what `NewGuid`
answers, how many identifiers are skipped, and what fails. -/
structure Circumstances where
  userName : Option String := none
  modelStateIsValid : Bool := true
  guid : String
  gap : ℕ := 0
  smtpFails : Bool := false
  commitFails : Bool := false
  deriving DecidableEq

/-- The result of an action; errors are of the model. `signIn` sets the cookie and redirects. -/
inductive ActionResult
  | view (name : String) (errors : List (String × String))
  | redirectToAction (action : String) (controller : Option String)
  | signIn (userName : String) (roles : List String) (action controller : String)
  | notFound
  deriving DecidableEq

abbrev Response := Except WebException ActionResult

variable {Text : Type} [DecidableEq Text] (settings : Settings Text)

/-! ### The services -/

/-- The name of a user as the database compares it. -/
def userKey (stored : StoredUser) : Text := settings.collate stored.user.userName

/-- The users whose activation key is the given one to the database. -/
def hasActivationKey (activationKey : String) (stored : StoredUser) : Bool :=
  match stored.role with
  | .parent key => settings.collate key = settings.collate activationKey
  | .child _ => false

/-- `IUserService` as the controllers use it: its answers when the given users are stored, and the users
that are stored after `SaveUser` and `DeleteUser`. A new user is saved under a new identifier. -/
structure IUserService where
  currentUser : Option String → List StoredUser → Option StoredUser
  getUser : ℤ → List StoredUser → Option StoredUser
  getUserByUserName : String → List StoredUser → Option StoredUser
  getUserByActivationKey : Option String → List StoredUser → Except WebException (Option StoredUser)
  saveUser : StoredUser → ℤ → List StoredUser → List StoredUser
  deleteUser : ℤ → List StoredUser → List StoredUser

/-- What the controllers expect of the service. -/
structure IUserService.Documented (service : IUserService) : Prop where
  currentUser_none : ∀ users, service.currentUser none users = none
  currentUser_some : ∀ userName users,
    service.currentUser (some userName) users = service.getUserByUserName userName users
  getUser : ∀ userId users, Finds (·.id) userId users (service.getUser userId users)
  getUserByUserName : ∀ userName users,
    Finds (userKey settings) (settings.collate userName) users (service.getUserByUserName userName users)
  getUserByActivationKey_null : ∀ users,
    service.getUserByActivationKey none users = .error (.bank (.argumentNull "activationKey"))
  getUserByActivationKey_missing : ∀ activationKey users,
    users.filter (hasActivationKey settings activationKey) = [] →
      service.getUserByActivationKey (some activationKey) users = .ok none
  getUserByActivationKey_single : ∀ activationKey users stored,
    users.filter (hasActivationKey settings activationKey) = [stored] →
      service.getUserByActivationKey (some activationKey) users = .ok (some stored)
  getUserByActivationKey_several : ∀ activationKey users first second rest,
    users.filter (hasActivationKey settings activationKey) = first :: second :: rest →
      service.getUserByActivationKey (some activationKey) users = .error (.bank .invalidOperation)
  saveUser : ∀ created newId users,
    service.saveUser created newId users = users ++ [{ created with id := newId }]
  deleteUser : ∀ userId users, service.deleteUser userId users = users.filter (·.id != userId)

namespace UserService

def getUserByUserName (userName : String) (users : List StoredUser) : Option StoredUser :=
  users.find? fun stored ↦ userKey settings stored = settings.collate userName

/-- `GetCurrentUser`, by the name that a request is authenticated by. -/
def getCurrentUser (userName : Option String) (users : List StoredUser) : Option StoredUser :=
  userName.bind fun userName ↦ getUserByUserName settings userName users

def getUser (userId : ℤ) (users : List StoredUser) : Option StoredUser :=
  users.find? fun stored ↦ stored.id = userId

/-- `GetUserByActivationKey`: `SingleOrDefaultAsync` throws when several parents have the key. -/
def getUserByActivationKey (activationKey : Option String) (users : List StoredUser) :
    Except WebException (Option StoredUser) :=
  match activationKey with
  | none => .error (.bank (.argumentNull "activationKey"))
  | some activationKey =>
    match users.filter (hasActivationKey settings activationKey) with
    | [] => .ok none
    | [stored] => .ok (some stored)
    | _ :: _ :: _ => .error (.bank .invalidOperation)

def saveUser (created : StoredUser) (newId : ℤ) (users : List StoredUser) : List StoredUser :=
  users ++ [{ created with id := newId }]

def deleteUser (userId : ℤ) (users : List StoredUser) : List StoredUser :=
  users.filter (·.id != userId)

/-- The service whose tasks are awaited as soon as they are made. -/
def awaited : IUserService where
  currentUser := getCurrentUser settings
  getUser := getUser
  getUserByUserName := getUserByUserName settings
  getUserByActivationKey := getUserByActivationKey settings
  saveUser := saveUser
  deleteUser := deleteUser

theorem documented : (awaited settings).Documented settings where
  currentUser_none _ := rfl
  currentUser_some _ _ := rfl
  getUser _ _ := finds_lookup
  getUserByUserName _ _ := finds_lookup
  getUserByActivationKey_null _ := rfl
  getUserByActivationKey_missing _ _ hfilter := by simp only [awaited, getUserByActivationKey, hfilter]
  getUserByActivationKey_single _ _ _ hfilter := by simp only [awaited, getUserByActivationKey, hfilter]
  getUserByActivationKey_several _ _ _ _ _ hfilter := by
    simp only [awaited, getUserByActivationKey, hfilter]
  saveUser _ _ _ := rfl
  deleteUser _ _ := rfl

end UserService

variable (service : IUserService) (circumstances : Circumstances)

/-- `CurrentUser as Parent`. -/
def currentParent (users : List StoredUser) : Option StoredUser :=
  (service.currentUser circumstances.userName users).filter fun stored ↦
    match stored.role with
    | .parent _ => true
    | .child _ => false

/-- `SaveUser`, which gives an identifier to a new user. -/
def saveUser (created : StoredUser) (website : Website) : Website :=
  let newId := website.lastId + 1 + circumstances.gap
  { website with users := service.saveUser created newId website.users, lastId := newId }

/-- `DeleteUser`. -/
def deleteUser (userId : ℤ) (website : Website) : Website :=
  { website with users := service.deleteUser userId website.users }

/-- A user that was found is written back under its identifier. -/
def update (stored : StoredUser) (website : Website) : Website :=
  { website with users := website.users.map fun other ↦ if other.id == stored.id then stored else other }

/-- `HashAndSalt`. -/
def hashAndSalt (userName password : String) : String :=
  settings.hashPasswordForStoringInConfigFile (userName ++ password)

/-- `SendEmail`: the e-mails sent. -/
def sendEmail (email : Email) : Except WebException (List Email) :=
  if isNullOrWhiteSpace settings.emailSmtpServer then .ok []
  else if circumstances.smtpFails then .error .smtp
  else .ok [email]

/-- The `Handle` of `SendRegistrationEmailHandler`. -/
def sendRegistrationEmail (userName activationKey : String) : Except WebException (List Email) :=
  if isNullOrWhiteSpace (some activationKey) then
    .error (.bank (.tardisBank "Parent does not have an activation key"))
  else
    sendEmail settings circumstances
      { toAddress := userName
        subject := "Welcome to Tardis Bank"
        body := "Please click here to activate your account: " ++
          ("http://tardisbank.com/User/Activate/" ++ activationKey) ++
          " (or copy and Paste this URL into your browser)" }

/-- `Initialise`, with the e-mails sent by the handler of the event. What the handler throws is lost with
the task that `Publish` returns. -/
def initialise (created : StoredUser) : StoredUser × List Email :=
  ({ created with role := .parent circumstances.guid },
    (sendRegistrationEmail settings circumstances created.user.userName
      circumstances.guid).toOption.getD [])

/-! ### The actions -/

/-- `RegisterInternal`. -/
def registerInternal (model : Option RegistrationViewModel) (usernameTakenMessage : String)
    (createUser : RegistrationViewModel → String → StoredUser × List Email)
    (confirmed : ActionResult) (viewName : String) (website : Website) : Response × Website :=
  match model with
  | none => (.error (.bank (.argumentNull "registrationViewModel")), website)
  | some model =>
    if circumstances.modelStateIsValid then
      match service.getUserByUserName model.email website.users with
      | some _ => (.ok (.view viewName [("Email", usernameTakenMessage)]), website)
      | none =>
        let created := createUser model (hashAndSalt settings model.email model.password)
        let user := if isNullOrWhiteSpace settings.emailSmtpServer then created.1.activate else created.1
        (.ok confirmed,
          { saveUser service circumstances user website with sent := website.sent ++ created.2 })
    else (.ok (.view viewName []), website)

/-- A new `Parent`, which has no activation key before it is initialised. -/
def newParent (model : RegistrationViewModel) (password : String) : StoredUser :=
  { id := 0
    user := { name := model.name, userName := model.email, password := password }
    role := .parent "" }

/-- `CreateChild`. -/
def createChild (parent : StoredUser) (model : RegistrationViewModel) (password : String) : StoredUser :=
  { id := 0
    user := { name := model.name, userName := model.email, password := password, isActive := true }
    role := .child parent.id }

/-- `Register`. -/
def register (model : Option RegistrationViewModel) (website : Website) : Response × Website :=
  registerInternal settings service circumstances model
    "Sorry, that email address has already been registered."
    (fun model password ↦ initialise settings circumstances (newParent model password))
    (.redirectToAction "Confirm" none) "Register" website

/-- `Activate`. -/
def activate (id : Option String) (website : Website) : Response × Website :=
  match service.getUserByActivationKey id website.users with
  | .error exception => (.error exception, website)
  | .ok none => (.ok (.view "ActivationFailed" []), website)
  | .ok (some stored) => (.ok (.view "ActivateConfirm" []), website.update stored.activate)

/-- `Login`. -/
def login (name password : String) (website : Website) : Response × Website :=
  let result : ActionResult :=
    if circumstances.modelStateIsValid then
      match service.getUserByUserName name website.users with
      | none => .view "Login" [("Name", "Invalid Name")]
      | some stored =>
        if !stored.user.isActive then
          .view "Login" [("Name", "Please activate your account first by clicking on the link in your " ++
            "activation email.")]
        else if hashAndSalt settings name password == stored.user.password then
          match stored.role with
          | .child _ => .signIn stored.user.userName stored.getRoles "ChildView" "Account"
          | .parent _ => .signIn stored.user.userName stored.getRoles "Index" "Child"
        else .view "Login" [("Password", "Invalid Password")]
    else .view "Login" []
  (.ok result, website)

/-- `GetNewPasswordFor`: the beginning of a new GUID. -/
def newPassword : String := String.ofList (circumstances.guid.toList.take 5)

/-- `SendPasswordResetEmail`, and what the action answers then. The user has its new password before the
e-mail is sent. -/
def sendPasswordResetEmail (stored : StoredUser) (toAddress whose : String) (confirmed : ActionResult)
    (website : Website) : Response × Website :=
  let hashedPassword := hashAndSalt settings stored.user.userName (newPassword circumstances)
  let reset := website.update (stored.resetPassword hashedPassword)
  match sendEmail settings circumstances
      { toAddress := toAddress
        subject := "Tardis Bank: " ++ whose ++ " reset password"
        body := "Here is " ++ whose ++ " new password: " ++ newPassword circumstances } with
  | .error exception => (.error exception, reset)
  | .ok sent => (.ok confirmed, { reset with sent := website.sent ++ sent })

/-- `Forgot`. -/
def forgot (userName : Option String) (website : Website) : Response × Website :=
  if circumstances.modelStateIsValid then
    match userName with
    | none => (.error (.bank (.argumentNull "forgottenPasswordViewModel")), website)
    | some userName =>
      match service.getUserByUserName userName website.users with
      | none =>
        (.ok (.view "Forgot" [("UserName", "We don't have a record of that email or user name.")]),
          website)
      | some stored =>
        match stored.role with
        | .child parentId =>
          match service.getUser parentId website.users with
          | none => (.error (.bank (.tardisBank ("Missing parent: " ++ toString parentId))), website)
          | some parent =>
            sendPasswordResetEmail settings circumstances stored parent.user.userName
              (stored.user.name ++ "'s") (.redirectToAction "ChildConfirm" none) website
        | .parent _ =>
          sendPasswordResetEmail settings circumstances stored stored.user.userName "Your"
            (.redirectToAction "ParentConfirm" none) website
  else (.ok (.view "Forgot" []), website)

/-- `ChangePassword`. -/
def changePassword (oldPassword newPassword : String) (website : Website) : Response × Website :=
  match service.currentUser circumstances.userName website.users with
  | none => (.error .nullReference, website)
  | some stored =>
    if hashAndSalt settings stored.user.userName oldPassword == stored.user.password then
      if circumstances.modelStateIsValid then
        (.ok (.redirectToAction "Index" none),
          website.update
            (stored.resetPassword (hashAndSalt settings stored.user.userName newPassword)))
      else (.ok (.view "ChangePassword" []), website)
    else
      (.ok (.view "ChangePassword" [("OldPassword", "The password you provided is invalid")]), website)

/-- `AddChild`. -/
def addChild (model : Option RegistrationViewModel) (website : Website) : Response × Website :=
  match currentParent service circumstances website.users with
  | none => (.ok .notFound, website)
  | some parent =>
    registerInternal settings service circumstances model "Sorry, that user name has already been taken"
      (fun model password ↦ (createChild parent model password, []))
      (.redirectToAction "Index" (some "Child")) "AddChild" website

/-- The `Children` of a parent. -/
def childrenOf (parent : StoredUser) (users : List StoredUser) : List StoredUser :=
  users.filter (·.role == .child parent.id)

/-- `DeleteChild`. -/
def deleteChild (childId : ℤ) (website : Website) : Response × Website :=
  match currentParent service circumstances website.users with
  | none => (.ok .notFound, website)
  | some parent =>
    if (childrenOf parent website.users).any (·.id == childId) then
      (.ok (.redirectToAction "Index" none), website.deleteUser service childId)
    else (.ok .notFound, website)

/-- `DeleteParent`. -/
def deleteParent (website : Website) : Response × Website :=
  match currentParent service circumstances website.users with
  | none => (.ok .notFound, website)
  | some parent =>
    (.ok (.redirectToAction "Logout" (some "User")),
      ((childrenOf parent website.users).foldl (fun held child ↦ held.deleteUser service child.id)
        website).deleteUser service parent.id)

/-- What the action of a request does before its transaction ends. -/
def action (website : Website) : Request → Response × Website
  | .register model => register settings service circumstances model website
  | .activate id => activate service id website
  | .login name password => login settings service circumstances name password website
  | .forgot userName => forgot settings service circumstances userName website
  | .changePassword oldPassword newPassword =>
    changePassword settings service circumstances oldPassword newPassword website
  | .addChild model => addChild settings service circumstances model website
  | .deleteChild childId => deleteChild service circumstances childId website
  | .deleteParent => deleteParent service circumstances website

/-! ### The transaction of a request -/

/-- The model has no error after the action: it was valid, and the action has added none. -/
def modelStays (result : ActionResult) : Bool :=
  circumstances.modelStateIsValid &&
    match result with
    | .view _ errors => errors.isEmpty
    | _ => true

/-- How a request ends: what is answered, and whether the transaction is committed. -/
structure Ending where
  response : Response
  isCommitted : Bool

/-- `TransactionAttribute`: how it ends a request whose action has answered. -/
structure TransactionAttribute where
  onActionExecuted : Circumstances → Response → Ending

/-- What the version history says of the attribute: it rolls back if a problem is encountered, so when the
action or the commit throws, and otherwise commits in `OnActionExecuted`. Whether errors in the model make
it roll back is a parameter that it has. -/
structure TransactionAttribute.Documented (transaction : TransactionAttribute) : Prop where
  rolls_back : ∀ circumstances response exception,
    (transaction.onActionExecuted circumstances response).response = .error exception →
      (transaction.onActionExecuted circumstances response).isCommitted = false
  throws : ∀ circumstances exception,
    (transaction.onActionExecuted circumstances (.error exception)).response = .error exception
  commits : ∀ circumstances result, modelStays circumstances result = true →
    circumstances.commitFails = false →
      transaction.onActionExecuted circumstances (.ok result) = ⟨.ok result, true⟩
  answers : ∀ circumstances result answered,
    (transaction.onActionExecuted circumstances (.ok result)).response = .ok answered → answered = result

/-- The attribute that rolls back when the model has errors, if it is told to. -/
def TransactionAttribute.rollingBack (rollsBackOnModelError : Bool) : TransactionAttribute where
  onActionExecuted circumstances response :=
    match response with
    | .error exception => ⟨.error exception, false⟩
    | .ok result =>
      if rollsBackOnModelError && !modelStays circumstances result then ⟨.ok result, false⟩
      else if circumstances.commitFails then ⟨.error .commit, false⟩
      else ⟨.ok result, true⟩

theorem TransactionAttribute.documented_rollingBack (rollsBackOnModelError : Bool) :
    (rollingBack rollsBackOnModelError).Documented where
  rolls_back circumstances response exception herror := by
    cases response with
    | error thrown => rfl
    | ok result =>
      simp only [rollingBack] at herror ⊢
      split_ifs at herror ⊢
      rfl
  throws _ _ := rfl
  commits circumstances result hstays hcommits := by
    simp [rollingBack, hstays, hcommits]
  answers circumstances result answered hanswered := by
    simp only [rollingBack] at hanswered
    split_ifs at hanswered
    · exact (Except.ok.inj hanswered).symm
    · exact (Except.ok.inj hanswered).symm

/-- What a request comes to whose action is in a transaction. What a state is when the transaction is
rolled back is given by `rolledBack`. -/
def transacted {State : Type} (transaction : TransactionAttribute) (rolledBack : State → State)
    (done : Response × State) : Response × State :=
  let ending := transaction.onActionExecuted circumstances done.1
  (ending.response, if ending.isCommitted then done.2 else rolledBack done.2)

/-- The answer to a request, and the website after it. E-mails that were sent stay sent. -/
def serve (transaction : TransactionAttribute) (website : Website) (visit : Circumstances × Request) :
    Response × Website :=
  transacted visit.1 transaction (fun done ↦ { website with sent := done.sent })
    (action settings service visit.1 website visit.2)

end Website

end SharpArch.TardisBank
