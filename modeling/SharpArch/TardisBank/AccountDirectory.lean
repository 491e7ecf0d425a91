import SharpArch.TardisBank.Website

/-!
# The directory of accounts

To its visitors the website is a directory: under each user name there is at most one account, with the
password that opens it, and a parent's account may still be waiting for the key that was e-mailed. There
are no lists to search, no hashes, no empty activation keys and no errors on the way.
-/

set_option autoImplicit false
set_option relaxedAutoImplicit false

namespace SharpArch.TardisBank

open Foundation.KeyedTable NHibernate.SessionFactories

namespace Website

/-- Whose account it is: a parent's, which may be waiting for a key, or a child's. -/
inductive Holder (Text : Type)
  | parent (awaited : Option Text)
  | child (parentId : ℤ)
  deriving DecidableEq

structure UserAccount (Text : Type) where
  id : ℤ
  userName : String
  password : String
  holder : Holder Text
  deriving DecidableEq

structure Directory (Text : Type) where
  accounts : Text → Option (UserAccount Text) := fun _ ↦ none
  lastId : ℤ := 0

variable {Text : Type} [DecidableEq Text] (settings : Settings Text) (circumstances : Circumstances)

namespace UserAccount

/-- The account waits for the key. All the accounts of parents that wait for nothing are taken to wait for
the empty one. -/
def hasKey (activationKey : String) (account : UserAccount Text) : Bool :=
  match account.holder with
  | .parent awaited => awaited.getD (settings.collate "") = settings.collate activationKey
  | .child _ => false

def isActive (account : UserAccount Text) : Bool :=
  match account.holder with
  | .parent (some _) => false
  | _ => true

/-- The visitor is signed in. -/
def signIn (account : UserAccount Text) : ActionResult :=
  match account.holder with
  | .child _ => .signIn account.userName ["Child"] "ChildView" "Account"
  | .parent _ => .signIn account.userName ["Parent"] "Index" "Child"

end UserAccount

namespace Directory

variable {settings circumstances} (directory : Directory Text)

/-- Accounts are changed or closed. -/
def revise (change : UserAccount Text → Option (UserAccount Text)) : Directory Text :=
  { directory with accounts := fun name ↦ (directory.accounts name).bind change }

def setPassword (id : ℤ) (password : String) : Directory Text :=
  directory.revise fun account ↦
    some (if account.id = id then { account with password := password } else account)

variable (settings circumstances)

/-- An account is opened, unless the name is taken. -/
def enter (model : Option RegistrationViewModel) (usernameTakenMessage : String) (holder : Holder Text)
    (confirmed : ActionResult) (viewName : String) : Response × Directory Text :=
  match model with
  | none => (.error (.bank (.argumentNull "registrationViewModel")), directory)
  | some model =>
    if circumstances.modelStateIsValid then
      match directory.accounts (settings.collate model.email) with
      | some _ => (.ok (.view viewName [("Email", usernameTakenMessage)]), directory)
      | none =>
        let newId := directory.lastId + 1 + circumstances.gap
        (.ok confirmed,
          { accounts := Function.update directory.accounts (settings.collate model.email)
              (some { id := newId, userName := model.email, password := model.password, holder := holder })
            lastId := newId })
    else (.ok (.view viewName []), directory)

/-- The account of a parent waits for the key, unless no e-mails are sent. -/
def register (model : Option RegistrationViewModel) : Response × Directory Text :=
  directory.enter settings circumstances model
    "Sorry, that email address has already been registered."
    (.parent (if isNullOrWhiteSpace settings.emailSmtpServer then none
      else some (settings.collate circumstances.guid)))
    (.redirectToAction "Confirm" none) "Register"

/-- The accounts with a key. -/
def HasKey (activationKey : String) (name : Text) : Prop :=
  ∃ account, directory.accounts name = some account ∧ account.hasKey settings activationKey = true

open Classical in
/-- The only account with the key waits no longer. -/
noncomputable def activate (id : Option String) : Response × Directory Text :=
  match id with
  | none => (.error (.bank (.argumentNull "activationKey")), directory)
  | some activationKey =>
    if ∃! name, directory.HasKey settings activationKey name then
      (.ok (.view "ActivateConfirm" []), directory.revise fun account ↦
        some (if account.hasKey settings activationKey then { account with holder := .parent none }
          else account))
    else if ∃ name, directory.HasKey settings activationKey name then
      (.error (.bank .invalidOperation), directory)
    else (.ok (.view "ActivationFailed" []), directory)

/-- An active account is opened by its password. -/
def login (name password : String) : Response × Directory Text :=
  let result : ActionResult :=
    if circumstances.modelStateIsValid then
      match directory.accounts (settings.collate name) with
      | none => .view "Login" [("Name", "Invalid Name")]
      | some account =>
        if !account.isActive then
          .view "Login" [("Name", "Please activate your account first by clicking on the link in your " ++
            "activation email.")]
        else if hashAndSalt settings name password ==
            hashAndSalt settings account.userName account.password then account.signIn
        else .view "Login" [("Password", "Invalid Password")]
    else .view "Login" []
  (.ok result, directory)

/-- The account gets a new password, with which an e-mail is sent. -/
def forgot (userName : Option String) : Response × Directory Text :=
  if circumstances.modelStateIsValid then
    match userName with
    | none => (.error (.bank (.argumentNull "forgottenPasswordViewModel")), directory)
    | some userName =>
      match directory.accounts (settings.collate userName) with
      | none =>
        (.ok (.view "Forgot" [("UserName", "We don't have a record of that email or user name.")]),
          directory)
      | some account =>
        let confirmed : ActionResult :=
          match account.holder with
          | .child _ => .redirectToAction "ChildConfirm" none
          | .parent _ => .redirectToAction "ParentConfirm" none
        let reset := directory.setPassword account.id (newPassword circumstances)
        if !isNullOrWhiteSpace settings.emailSmtpServer && circumstances.smtpFails then
          (.error .smtp, reset)
        else (.ok confirmed, reset)
  else (.ok (.view "Forgot" []), directory)

/-- The account of the visitor. -/
def current : Option (UserAccount Text) :=
  circumstances.userName.bind fun userName ↦ directory.accounts (settings.collate userName)

/-- The account of the visitor, if it is a parent's. -/
def currentParent : Option (UserAccount Text) :=
  (directory.current settings circumstances).filter fun account ↦
    match account.holder with
    | .parent _ => true
    | .child _ => false

def changePassword (oldPassword newPassword : String) : Response × Directory Text :=
  match directory.current settings circumstances with
  | none => (.error .nullReference, directory)
  | some account =>
    if hashAndSalt settings account.userName oldPassword ==
        hashAndSalt settings account.userName account.password then
      if circumstances.modelStateIsValid then
        (.ok (.redirectToAction "Index" none), directory.setPassword account.id newPassword)
      else (.ok (.view "ChangePassword" []), directory)
    else
      (.ok (.view "ChangePassword" [("OldPassword", "The password you provided is invalid")]), directory)

def addChild (model : Option RegistrationViewModel) : Response × Directory Text :=
  match directory.currentParent settings circumstances with
  | none => (.ok .notFound, directory)
  | some parent =>
    directory.enter settings circumstances model "Sorry, that user name has already been taken"
      (.child parent.id) (.redirectToAction "Index" (some "Child")) "AddChild"

open Classical in
noncomputable def deleteChild (childId : ℤ) : Response × Directory Text :=
  match directory.currentParent settings circumstances with
  | none => (.ok .notFound, directory)
  | some parent =>
    if ∃ name account, directory.accounts name = some account ∧ account.id = childId ∧
        account.holder = .child parent.id then
      (.ok (.redirectToAction "Index" none),
        directory.revise fun account ↦ if account.id = childId then none else some account)
    else (.ok .notFound, directory)

/-- The account of a parent is closed with those of its children. -/
def deleteParent : Response × Directory Text :=
  match directory.currentParent settings circumstances with
  | none => (.ok .notFound, directory)
  | some parent =>
    (.ok (.redirectToAction "Logout" (some "User")), directory.revise fun account ↦
      if account.id = parent.id ∨ account.holder = .child parent.id then none else some account)

noncomputable def action : Request → Response × Directory Text
  | .register model => directory.register settings circumstances model
  | .activate id => directory.activate settings id
  | .login name password => directory.login settings circumstances name password
  | .forgot userName => directory.forgot settings circumstances userName
  | .changePassword oldPassword newPassword =>
    directory.changePassword settings circumstances oldPassword newPassword
  | .addChild model => directory.addChild settings circumstances model
  | .deleteChild childId => directory.deleteChild settings circumstances childId
  | .deleteParent => directory.deleteParent settings circumstances

/-- The answer to a request, and the directory after it. -/
noncomputable def serve (transaction : TransactionAttribute) (directory : Directory Text)
    (visit : Circumstances × Request) : Response × Directory Text :=
  transacted visit.1 transaction (fun _ ↦ directory) (directory.action settings visit.1 visit.2)

end Directory

end Website

/-! ### The website as a directory -/

/-- The parent of a child. -/
def StoredUser.parentId (stored : StoredUser) : Option ℤ :=
  match stored.role with
  | .parent _ => none
  | .child parentId => some parentId

theorem StoredUser.parentId_of_parent {stored : StoredUser} {activationKey : String}
    (hrole : stored.role = .parent activationKey) : stored.parentId = none := by
  rw [parentId, hrole]

theorem StoredUser.parentId_eq_some_iff {stored : StoredUser} {parentId : ℤ} :
    stored.parentId = some parentId ↔ stored.role = .child parentId := by
  unfold StoredUser.parentId
  cases stored.role <;> simp

namespace Website

variable {Text : Type} {settings : Settings Text}

/-- Only a parent has an activation key. -/
theorem exists_parent_of_hasActivationKey [DecidableEq Text] {activationKey : String}
    {stored : StoredUser} (hkey : hasActivationKey settings activationKey stored = true) :
    ∃ key, stored.role = .parent key ∧ settings.collate key = settings.collate activationKey := by
  unfold hasActivationKey at hkey
  cases hrole : stored.role with
  | parent key => exact ⟨key, rfl, by simpa [hrole] using hkey⟩
  | child parentId => simp [hrole] at hkey

variable (settings) in
/-- Whose account a stored user has. -/
def holderOf (stored : StoredUser) : Holder Text :=
  match stored.role with
  | .parent activationKey =>
    .parent (if stored.user.isActive then none else some (settings.collate activationKey))
  | .child parentId => .child parentId

variable (settings) in
/-- A stored user has an account. Its password is hashed, a child is always active, and an active parent
has the empty activation key. -/
structure Represents (stored : StoredUser) (account : UserAccount Text) : Prop where
  id : account.id = stored.id
  userName : account.userName = stored.user.userName
  password : stored.user.password = hashAndSalt settings stored.user.userName account.password
  holder : account.holder = holderOf settings stored
  child_isActive : ∀ parentId, stored.role = .child parentId → stored.user.isActive = true
  parent_key : ∀ activationKey, stored.role = .parent activationKey → stored.user.isActive = true →
    activationKey = ""

namespace Represents

variable {stored : StoredUser} {account : UserAccount Text}

theorem holder_eq_child_iff (hrepresents : Represents settings stored account) (parentId : ℤ) :
    account.holder = .child parentId ↔ stored.role = .child parentId := by
  rw [hrepresents.holder, holderOf]
  cases stored.role <;> simp

theorem holder_of_child (hrepresents : Represents settings stored account) {parentId : ℤ}
    (hrole : stored.role = .child parentId) : account.holder = .child parentId :=
  (hrepresents.holder_eq_child_iff parentId).mpr hrole

theorem holder_of_parent (hrepresents : Represents settings stored account) {activationKey : String}
    (hrole : stored.role = .parent activationKey) :
    account.holder =
      .parent (if stored.user.isActive then none else some (settings.collate activationKey)) := by
  rw [hrepresents.holder, holderOf, hrole]

theorem isActive (hrepresents : Represents settings stored account) :
    account.isActive = stored.user.isActive := by
  unfold UserAccount.isActive
  cases hrole : stored.role with
  | child parentId =>
    rw [hrepresents.holder_of_child hrole, hrepresents.child_isActive parentId hrole]
  | parent key =>
    rw [hrepresents.holder_of_parent hrole]
    cases stored.user.isActive <;> rfl

/-- The user is activated as soon as the account waits no longer. -/
theorem activate (hrepresents : Represents settings stored account) {activationKey : String}
    (hrole : stored.role = .parent activationKey) :
    Represents settings stored.activate { account with holder := .parent none } where
  id := hrepresents.id
  userName := hrepresents.userName
  password := hrepresents.password
  holder := by simp [holderOf, StoredUser.activate, hrole]
  child_isActive _ _ := rfl
  parent_key key hkey _ := by
    simp only [StoredUser.activate, hrole, Role.parent.injEq] at hkey
    exact hkey.symm

theorem resetPassword (hrepresents : Represents settings stored account) (password : String) :
    Represents settings
      (stored.resetPassword (hashAndSalt settings stored.user.userName password))
      { account with password := password } :=
  ⟨hrepresents.id, hrepresents.userName, rfl, hrepresents.holder, hrepresents.child_isActive,
    hrepresents.parent_key⟩

theorem hasKey [DecidableEq Text] (hrepresents : Represents settings stored account)
    (activationKey : String) :
    account.hasKey settings activationKey = hasActivationKey settings activationKey stored := by
  unfold UserAccount.hasKey hasActivationKey
  cases hrole : stored.role with
  | child parentId => simp only [hrepresents.holder_of_child hrole]
  | parent key =>
    simp only [hrepresents.holder_of_parent hrole]
    cases hactive : stored.user.isActive with
    | false => simp
    | true => simp [hrepresents.parent_key key hrole hactive]

end Represents

variable [DecidableEq Text] {service : IUserService} {circumstances : Circumstances}

namespace IUserService.Documented

variable {users : List StoredUser} {stored : StoredUser}

theorem mem_of_getUserByUserName (hservice : service.Documented settings) {userName : String}
    (hfound : service.getUserByUserName userName users = some stored) : stored ∈ users :=
  ((hservice.getUserByUserName userName users).mem stored hfound).1

theorem mem_of_currentUser (hservice : service.Documented settings) {userName : Option String}
    (hcurrent : service.currentUser userName users = some stored) : stored ∈ users := by
  cases userName with
  | none =>
    rw [hservice.currentUser_none] at hcurrent
    cases hcurrent
  | some userName =>
    rw [hservice.currentUser_some] at hcurrent
    exact hservice.mem_of_getUserByUserName hcurrent

end IUserService.Documented

variable (settings) in
/-- The directory that a website is. The parents of children are stored. -/
structure Simulates (website : Website) (directory : Directory Text) : Prop where
  table : StandsFor (userKey settings) (Represents settings) website.users directory.accounts
  lastId : directory.lastId = website.lastId
  ids : (website.users.map (·.id)).Nodup
  bounded : ∀ stored ∈ website.users, stored.id ≤ website.lastId
  parents : ∀ child ∈ website.users, ∀ parentId, child.parentId = some parentId →
    ∃ parent ∈ website.users, parent.id = parentId ∧ parent.parentId = none

namespace Simulates

variable {website : Website} {directory : Directory Text}

theorem start : Simulates settings {} {} where
  table := StandsFor.empty
  lastId := rfl
  ids := List.nodup_nil
  bounded _ hmem := absurd hmem List.not_mem_nil
  parents _ hmem := absurd hmem List.not_mem_nil

theorem of_sent (hsimulates : Simulates settings website directory) (sent : List Email) :
    Simulates settings { website with sent := sent } directory :=
  ⟨hsimulates.table, hsimulates.lastId, hsimulates.ids, hsimulates.bounded, hsimulates.parents⟩

theorem eq_of_id (hsimulates : Simulates settings website directory) {stored other : StoredUser}
    (hstored : stored ∈ website.users) (hother : other ∈ website.users) (hid : stored.id = other.id) :
    stored = other :=
  List.inj_on_of_nodup_map hsimulates.ids hstored hother hid

/-- Users are changed or deleted, children with their parents, and so are their accounts. -/
theorem revise (hsimulates : Simulates settings website directory)
    {change : StoredUser → Option StoredUser}
    {changeAccount : UserAccount Text → Option (UserAccount Text)}
    (hsame : ∀ stored ∈ website.users, ∀ changed, change stored = some changed →
      changed.id = stored.id ∧ changed.user.userName = stored.user.userName ∧
        changed.parentId = stored.parentId)
    (hrelated : ∀ stored ∈ website.users, ∀ account, Represents settings stored account →
      Option.Rel (Represents settings) (change stored) (changeAccount account))
    (hclosed : ∀ parent ∈ website.users, parent.parentId = none → change parent = none →
      ∀ child ∈ website.users, child.parentId = some parent.id → change child = none) :
    Simulates settings { website with users := website.users.filterMap change }
      (directory.revise changeAccount) where
  table := by
    refine hsimulates.table.revise ?_ fun stored hmem account _ ↦ hrelated stored hmem account
    intro stored hmem changed hchange
    exact congrArg settings.collate (hsame stored hmem changed hchange).2.1
  lastId := hsimulates.lastId
  ids := by
    have hids : ∀ users : List StoredUser, (∀ stored ∈ users, stored ∈ website.users) →
        ((users.filterMap change).map (·.id)).Sublist (users.map (·.id)) := by
      intro users husers
      induction users with
      | nil => exact List.Sublist.slnil
      | cons stored rest ih =>
        obtain ⟨hstored, hrest⟩ := List.forall_mem_cons.mp husers
        cases hchange : change stored with
        | none =>
          rw [List.filterMap_cons_none hchange]
          exact (ih hrest).cons _
        | some changed =>
          rw [List.filterMap_cons_some hchange, List.map_cons, List.map_cons,
            (hsame stored hstored changed hchange).1]
          exact (ih hrest).cons_cons _
    exact (hids website.users fun _ hmem ↦ hmem).nodup hsimulates.ids
  bounded := by
    intro changed hchanged
    obtain ⟨stored, hmem, hchange⟩ := List.mem_filterMap.mp hchanged
    rw [(hsame stored hmem changed hchange).1]
    exact hsimulates.bounded stored hmem
  parents := by
    intro changed hchanged parentId hparentId
    obtain ⟨child, hchild, hchange⟩ := List.mem_filterMap.mp hchanged
    rw [(hsame child hchild changed hchange).2.2] at hparentId
    obtain ⟨parent, hparent, rfl, hnone⟩ := hsimulates.parents child hchild parentId hparentId
    cases hkept : change parent with
    | none =>
      have hgone := hclosed parent hparent hnone hkept child hchild hparentId
      rw [hgone] at hchange
      cases hchange
    | some kept =>
      obtain ⟨hid, -, hsameParent⟩ := hsame parent hparent kept hkept
      exact ⟨kept, List.mem_filterMap.mpr ⟨parent, hparent, hkept⟩, hid, hsameParent.trans hnone⟩

/-- One user is written back, and its account is changed alone. -/
theorem update (hsimulates : Simulates settings website directory) {stored changed : StoredUser}
    {changeAccount : UserAccount Text → UserAccount Text} (hmem : stored ∈ website.users)
    (hsame : changed.id = stored.id ∧ changed.user.userName = stored.user.userName ∧
      changed.parentId = stored.parentId)
    (hself : ∀ account, Represents settings stored account →
      Represents settings changed (changeAccount account))
    (hother : ∀ other ∈ website.users, other.id ≠ stored.id → ∀ account,
      Represents settings other account → changeAccount account = account) :
    Simulates settings (website.update changed)
      (directory.revise fun account ↦ some (changeAccount account)) := by
  have hupdate : website.update changed = { website with
      users := website.users.filterMap fun other ↦
        some (if other.id = stored.id then changed else other) } := by
    simp [Website.update, hsame.1, List.filterMap_eq_map']
  rw [hupdate]
  refine hsimulates.revise ?_ ?_ ?_
  · intro other hmemOther result hresult
    obtain rfl := Option.some.inj hresult
    split_ifs with hid
    · obtain rfl := hsimulates.eq_of_id hmemOther hmem hid
      exact hsame
    · exact ⟨rfl, rfl, rfl⟩
  · intro other hmemOther account hrepresents
    refine Option.Rel.some ?_
    split_ifs with hid
    · obtain rfl := hsimulates.eq_of_id hmemOther hmem hid
      exact hself account hrepresents
    · rw [hother other hmemOther hid account hrepresents]
      exact hrepresents
  · intro _ _ _ hnone
    cases hnone

/-- Users are deleted, children with their parents. -/
theorem delete (hsimulates : Simulates settings website directory) {keeps : StoredUser → Bool}
    {closes : UserAccount Text → Prop} [DecidablePred closes]
    (hiff : ∀ stored ∈ website.users, ∀ account, Represents settings stored account →
      (closes account ↔ keeps stored = false))
    (hclosed : ∀ parent ∈ website.users, parent.parentId = none → keeps parent = false →
      ∀ child ∈ website.users, child.parentId = some parent.id → keeps child = false) :
    Simulates settings { website with users := website.users.filter keeps }
      (directory.revise fun account ↦ if closes account then none else some account) := by
  have hfilter : website.users.filter keeps =
      website.users.filterMap fun stored ↦ if keeps stored then some stored else none := by
    induction website.users with
    | nil => rfl
    | cons stored rest ih => cases hkeeps : keeps stored <;> simp [hkeeps, ih]
  rw [hfilter]
  refine hsimulates.revise ?_ ?_ ?_
  · intro stored _ changed hchange
    split_ifs at hchange
    obtain rfl := Option.some.inj hchange
    exact ⟨rfl, rfl, rfl⟩
  · intro stored hmem account hrepresents
    have hcloses := hiff stored hmem account hrepresents
    cases hkeeps : keeps stored with
    | false =>
      rw [if_pos (hcloses.mpr hkeeps)]
      exact Option.Rel.none
    | true =>
      have hstays : ¬ closes account := fun hcloses' ↦ by simp [hcloses.mp hcloses'] at hkeeps
      rw [if_neg hstays]
      exact Option.Rel.some hrepresents
  · intro parent hparent hnone hgone child hchild hchildOf
    have hkeeps : keeps parent = false := by simpa using hgone
    simp [hclosed parent hparent hnone hkeeps child hchild hchildOf]

/-- A user is stored under a name that was free. -/
theorem insert (hsimulates : Simulates settings website directory) {stored : StoredUser}
    {account : UserAccount Text} (hnew : directory.accounts (userKey settings stored) = none)
    (hrepresents : Represents settings stored account) (hid : website.lastId < stored.id)
    (hparents : ∀ parentId, stored.parentId = some parentId →
      ∃ parent ∈ website.users, parent.id = parentId ∧ parent.parentId = none) :
    Simulates settings { website with users := website.users ++ [stored], lastId := stored.id }
      { accounts := Function.update directory.accounts (userKey settings stored) (some account)
        lastId := stored.id } where
  table := hsimulates.table.insert hnew hrepresents
  lastId := rfl
  ids := by
    rw [List.map_append, List.map_singleton]
    refine hsimulates.ids.append (List.nodup_singleton _) ?_
    rw [List.disjoint_singleton]
    intro hmem
    obtain ⟨other, hother, hsame⟩ := List.mem_map.mp hmem
    have hbound := hsimulates.bounded other hother
    omega
  bounded := by
    intro other hother
    rcases List.mem_append.mp hother with hold | hlast
    · exact (hsimulates.bounded other hold).trans hid.le
    · rw [List.mem_singleton.mp hlast]
  parents := by
    intro child hchild parentId hparentId
    have hstays : (∃ parent ∈ website.users, parent.id = parentId ∧ parent.parentId = none) →
        ∃ parent ∈ website.users ++ [stored], parent.id = parentId ∧ parent.parentId = none := by
      rintro ⟨parent, hparent, hrest⟩
      exact ⟨parent, List.mem_append_left _ hparent, hrest⟩
    rcases List.mem_append.mp hchild with hold | hlast
    · exact hstays (hsimulates.parents child hold parentId hparentId)
    · obtain rfl := List.mem_singleton.mp hlast
      exact hstays (hparents parentId hparentId)

/-! ### The visitor -/

theorem found (hsimulates : Simulates settings website directory) (hservice : service.Documented settings)
    (userName : String) :
    Option.Rel (Represents settings) (service.getUserByUserName userName website.users)
      (directory.accounts (settings.collate userName)) :=
  hsimulates.table.entry_of_finds (hservice.getUserByUserName userName website.users)

theorem current (hsimulates : Simulates settings website directory) (hservice : service.Documented settings)
    (circumstances : Circumstances) :
    Option.Rel (Represents settings) (service.currentUser circumstances.userName website.users)
      (directory.current settings circumstances) := by
  unfold Directory.current
  cases circumstances.userName with
  | none =>
    rw [hservice.currentUser_none]
    exact Option.Rel.none
  | some userName =>
    rw [hservice.currentUser_some]
    exact hsimulates.found hservice userName

/-- The visitor is a parent that is stored, and has an account, or is no parent. -/
theorem currentParent (hsimulates : Simulates settings website directory)
    (hservice : service.Documented settings) :
    (Website.currentParent service circumstances website.users = none ∧
      directory.currentParent settings circumstances = none) ∨
    ∃ parent ∈ website.users, ∃ account,
      Website.currentParent service circumstances website.users = some parent ∧
      directory.currentParent settings circumstances = some account ∧
      parent.parentId = none ∧ Represents settings parent account := by
  have hrelated := hsimulates.current hservice circumstances
  unfold Website.currentParent Directory.currentParent
  generalize hstored : service.currentUser circumstances.userName website.users = found at hrelated ⊢
  generalize directory.current settings circumstances = held at hrelated ⊢
  cases hrelated with
  | none => exact Or.inl ⟨rfl, rfl⟩
  | @some stored account hrepresents =>
    cases hrole : stored.role with
    | child parentId =>
      refine Or.inl ?_
      simp [Option.filter, hrole, hrepresents.holder_of_child hrole]
    | parent activationKey =>
      refine Or.inr ⟨stored, hservice.mem_of_currentUser hstored, account, ?_, ?_, ?_, hrepresents⟩
      · simp [Option.filter, hrole]
      · simp [Option.filter, hrepresents.holder_of_parent hrole]
      · exact StoredUser.parentId_of_parent hrole

end Simulates

/-! ### The actions -/

variable (settings) in
/-- The same answer, from a website and from the directory that it is afterwards. -/
def Agree (done : Response × Website) (done' : Response × Directory Text) : Prop :=
  done.1 = done'.1 ∧ Simulates settings done.2 done'.2

namespace Simulates

variable {website : Website} {directory : Directory Text}

/-- A user is registered whose account has a holder, however it is made. -/
theorem registerInternal (hsimulates : Simulates settings website directory)
    (hservice : service.Documented settings)
    {createUser : RegistrationViewModel → String → StoredUser × List Email} {holder : Holder Text}
    (hcreated : ∀ model newId,
      let created := (createUser model (hashAndSalt settings model.email model.password)).1
      let user := if isNullOrWhiteSpace settings.emailSmtpServer then created.activate else created
      user.user.userName = model.email ∧
      Represents settings { user with id := newId }
        { id := newId, userName := model.email, password := model.password, holder := holder } ∧
      ∀ parentId, user.parentId = some parentId →
        ∃ parent ∈ website.users, parent.id = parentId ∧ parent.parentId = none)
    (model : Option RegistrationViewModel) (usernameTakenMessage viewName : String)
    (confirmed : ActionResult) :
    Agree settings
      (Website.registerInternal settings service circumstances model usernameTakenMessage createUser
        confirmed viewName website)
      (directory.enter settings circumstances model usernameTakenMessage holder confirmed viewName) := by
  unfold Website.registerInternal Directory.enter
  cases model with
  | none => exact ⟨rfl, hsimulates⟩
  | some model =>
    cases circumstances.modelStateIsValid with
    | false => exact ⟨rfl, hsimulates⟩
    | true =>
      have hentry := hsimulates.found hservice model.email
      simp only [if_true]
      generalize service.getUserByUserName model.email website.users = found at hentry
      generalize hheld : directory.accounts (settings.collate model.email) = held at hentry
      cases hentry with
      | some _ => exact ⟨rfl, hsimulates⟩
      | none =>
        obtain ⟨hname, hrepresents, hparents⟩ :=
          hcreated model (website.lastId + 1 + circumstances.gap)
        have hinsert := hsimulates.insert (by rw [userKey, hname]; exact hheld) hrepresents
          (by simp only; omega) hparents
        rw [userKey, hname] at hinsert
        refine ⟨rfl, ?_⟩
        simp only [hsimulates.lastId, saveUser, hservice.saveUser]
        exact hinsert.of_sent _

theorem register (hsimulates : Simulates settings website directory)
    (hservice : service.Documented settings) (model : Option RegistrationViewModel) :
    Agree settings (Website.register settings service circumstances model website)
      (directory.register settings circumstances model) := by
  refine hsimulates.registerInternal hservice ?_ model _ _ _
  intro model newId created user
  cases hblank : isNullOrWhiteSpace settings.emailSmtpServer with
  | true =>
    have huser : user = created.activate := if_pos hblank
    rw [huser]
    refine ⟨rfl, ⟨rfl, rfl, rfl, rfl, ?_, ?_⟩, ?_⟩
    · intro _ _
      rfl
    · rintro key hkey -
      exact (Role.parent.inj hkey).symm
    · rintro parentId ⟨⟩
  | false =>
    have huser : user = created := if_neg (by simp [hblank])
    rw [huser]
    refine ⟨rfl, ⟨rfl, rfl, rfl, rfl, ?_, ?_⟩, ?_⟩
    · rintro parentId ⟨⟩
    · rintro key - ⟨⟩
    · rintro parentId ⟨⟩

theorem addChild (hsimulates : Simulates settings website directory)
    (hservice : service.Documented settings) (model : Option RegistrationViewModel) :
    Agree settings (Website.addChild settings service circumstances model website)
      (directory.addChild settings circumstances model) := by
  unfold Website.addChild Directory.addChild
  rcases hsimulates.currentParent hservice with
    ⟨hnone, hnone'⟩ | ⟨parent, hmem, account, hparent, haccount, hrole, hrep⟩
  · rw [hnone, hnone']
    exact ⟨rfl, hsimulates⟩
  · rw [hparent, haccount]
    refine hsimulates.registerInternal hservice ?_ model _ _ _
    intro model newId created user
    -- A child is active when it is made, and `Activate` leaves it so.
    have huser : user = created := by
      simp only [user]
      split_ifs <;> rfl
    rw [huser, hrep.id]
    refine ⟨rfl, ⟨rfl, rfl, rfl, rfl, fun _ _ ↦ rfl, ?_⟩, ?_⟩
    · rintro key ⟨⟩
    · rintro parentId ⟨⟩
      exact ⟨parent, hmem, rfl, hrole⟩

/-- The names under which an account has a key are those of the users with the key. -/
theorem hasKey_iff (hsimulates : Simulates settings website directory) (activationKey : String)
    (name : Text) :
    directory.HasKey settings activationKey name ↔
      ∃ stored ∈ website.users.filter (hasActivationKey settings activationKey),
        userKey settings stored = name := by
  constructor
  · rintro ⟨account, haccount, hkey⟩
    obtain ⟨stored, hmem, hname, hrepresents⟩ := hsimulates.table.exists_row haccount
    rw [hrepresents.hasKey] at hkey
    exact ⟨stored, List.mem_filter.mpr ⟨hmem, hkey⟩, hname⟩
  · rintro ⟨stored, hfilter, rfl⟩
    obtain ⟨hmem, hkey⟩ := List.mem_filter.mp hfilter
    obtain ⟨account, haccount, hrepresents⟩ := hsimulates.table.exists_entry hmem
    exact ⟨account, haccount, (hrepresents.hasKey _).trans hkey⟩

theorem activate (hsimulates : Simulates settings website directory)
    (hservice : service.Documented settings) (id : Option String) :
    Agree settings (Website.activate service id website) (directory.activate settings id) := by
  unfold Website.activate Directory.activate
  cases id with
  | none =>
    rw [hservice.getUserByActivationKey_null]
    exact ⟨rfl, hsimulates⟩
  | some activationKey =>
    have hiff := hsimulates.hasKey_iff activationKey
    have hnodup : ((website.users.filter (hasActivationKey settings activationKey)).map
        (userKey settings)).Nodup :=
      (List.Sublist.map _ List.filter_sublist).nodup hsimulates.table.nodup
    cases hfilter : website.users.filter (hasActivationKey settings activationKey) with
    | nil =>
      rw [hfilter] at hiff
      have hnone : ¬ ∃ name, directory.HasKey settings activationKey name := by simp [hiff]
      simp only [hservice.getUserByActivationKey_missing activationKey website.users hfilter]
      rw [if_neg fun hunique ↦ hnone hunique.exists, if_neg hnone]
      exact ⟨rfl, hsimulates⟩
    | cons stored rest =>
      have hstored : stored ∈ website.users ∧ hasActivationKey settings activationKey stored = true :=
        List.mem_filter.mp (hfilter ▸ List.mem_cons_self)
      have hhas : directory.HasKey settings activationKey (userKey settings stored) :=
        (hiff _).mpr ⟨stored, hfilter ▸ List.mem_cons_self, rfl⟩
      cases rest with
      | nil =>
        have honly : ∀ other ∈ website.users, hasActivationKey settings activationKey other = true →
            other = stored := by
          intro other hmem hkey
          have hother := List.mem_filter.mpr ⟨hmem, hkey⟩
          rw [hfilter] at hother
          exact List.mem_singleton.mp hother
        have hunique : ∃! name, directory.HasKey settings activationKey name := by
          refine ⟨_, hhas, fun name hname ↦ ?_⟩
          obtain ⟨other, hother, rfl⟩ := (hiff name).mp hname
          rw [honly other (List.mem_filter.mp hother).1 (List.mem_filter.mp hother).2]
        obtain ⟨key, hrole, -⟩ := exists_parent_of_hasActivationKey hstored.2
        simp only [hservice.getUserByActivationKey_single activationKey website.users stored hfilter]
        rw [if_pos hunique]
        refine ⟨rfl, hsimulates.update hstored.1 ⟨rfl, rfl, ?_⟩ ?_ ?_⟩
        · simp [StoredUser.parentId, StoredUser.activate, hrole]
        · intro account hrepresents
          rw [if_pos ((hrepresents.hasKey _).trans hstored.2)]
          exact hrepresents.activate hrole
        · intro other hmem hid account hrepresents
          refine if_neg fun hkey ↦ hid ?_
          rw [honly other hmem ((hrepresents.hasKey _).symm.trans hkey)]
      | cons second others =>
        have hsecond : directory.HasKey settings activationKey (userKey settings second) :=
          (hiff _).mpr ⟨second, hfilter ▸ List.mem_cons_of_mem _ List.mem_cons_self, rfl⟩
        have hdistinct : userKey settings stored ≠ userKey settings second := by
          rw [hfilter, List.map_cons, List.map_cons] at hnodup
          exact fun hsame ↦ (List.nodup_cons.mp hnodup).1 (hsame ▸ List.mem_cons_self)
        simp only [hservice.getUserByActivationKey_several activationKey website.users stored second
          others hfilter]
        rw [if_neg fun hunique ↦ hdistinct (hunique.unique hhas hsecond), if_pos ⟨_, hhas⟩]
        exact ⟨rfl, hsimulates⟩

theorem login (hsimulates : Simulates settings website directory) (hservice : service.Documented settings)
    (name password : String) :
    Agree settings (Website.login settings service circumstances name password website)
      (directory.login settings circumstances name password) := by
  refine ⟨?_, hsimulates⟩
  have hentry := hsimulates.found hservice name
  unfold Website.login Directory.login
  generalize service.getUserByUserName name website.users = found at hentry ⊢
  generalize directory.accounts (settings.collate name) = held at hentry ⊢
  cases hentry with
  | none => rfl
  | @some stored account hrepresents =>
    have hholder := hrepresents.holder
    unfold holderOf at hholder
    simp only [hrepresents.isActive, hrepresents.userName, hrepresents.password,
      UserAccount.signIn, StoredUser.getRoles, hholder]
    cases stored.role <;> rfl

/-- A user that is found is given a password, and so is its account. -/
theorem resetPassword (hsimulates : Simulates settings website directory) {stored : StoredUser}
    {account : UserAccount Text} (hmem : stored ∈ website.users)
    (hrepresents : Represents settings stored account) (password : String) :
    Simulates settings
      (website.update (stored.resetPassword (hashAndSalt settings stored.user.userName password)))
      (directory.setPassword account.id password) := by
  refine hsimulates.update hmem ⟨rfl, rfl, rfl⟩ ?_ ?_
  · intro other hother
    rw [if_pos (hother.id.trans hrepresents.id.symm)]
    exact hother.resetPassword password
  · intro other _ hid held hheld
    refine if_neg fun hsame ↦ hid ?_
    rw [← hheld.id, hsame, hrepresents.id]

theorem sendPasswordResetEmail (hsimulates : Simulates settings website directory)
    {stored : StoredUser} {account : UserAccount Text} (hmem : stored ∈ website.users)
    (hrepresents : Represents settings stored account) (toAddress whose : String)
    (confirmed : ActionResult) :
    Agree settings
      (Website.sendPasswordResetEmail settings circumstances stored toAddress whose confirmed website)
      (if !isNullOrWhiteSpace settings.emailSmtpServer && circumstances.smtpFails then
        (.error .smtp, directory.setPassword account.id (newPassword circumstances))
      else (.ok confirmed, directory.setPassword account.id (newPassword circumstances))) := by
  unfold Website.sendPasswordResetEmail sendEmail
  have hreset := hsimulates.resetPassword hmem hrepresents (newPassword circumstances)
  cases isNullOrWhiteSpace settings.emailSmtpServer with
  | true => exact ⟨rfl, hreset.of_sent _⟩
  | false =>
    cases circumstances.smtpFails with
    | true => exact ⟨rfl, hreset⟩
    | false => exact ⟨rfl, hreset.of_sent _⟩

theorem forgot (hsimulates : Simulates settings website directory) (hservice : service.Documented settings)
    (userName : Option String) :
    Agree settings (Website.forgot settings service circumstances userName website)
      (directory.forgot settings circumstances userName) := by
  unfold Website.forgot Directory.forgot
  cases circumstances.modelStateIsValid with
  | false => exact ⟨rfl, hsimulates⟩
  | true =>
    cases userName with
    | none => exact ⟨rfl, hsimulates⟩
    | some userName =>
      have hentry := hsimulates.found hservice userName
      simp only [if_true]
      generalize hfound : service.getUserByUserName userName website.users = found at hentry ⊢
      generalize directory.accounts (settings.collate userName) = held at hentry ⊢
      cases hentry with
      | none => exact ⟨rfl, hsimulates⟩
      | @some stored account hrepresents =>
        have hmem := hservice.mem_of_getUserByUserName hfound
        cases hrole : stored.role with
        | parent activationKey =>
          simp only [hrole, hrepresents.holder_of_parent hrole]
          exact hsimulates.sendPasswordResetEmail hmem hrepresents _ _ _
        | child parentId =>
          -- The parent of a child is stored.
          obtain ⟨parent, hparent, hid, -⟩ :=
            hsimulates.parents stored hmem parentId (StoredUser.parentId_eq_some_iff.mpr hrole)
          obtain ⟨other, hother⟩ : ∃ other, service.getUser parentId website.users = some other := by
            refine Option.ne_none_iff_exists'.mp fun hmissing ↦ ?_
            exact (hservice.getUser parentId website.users).missing hmissing parent hparent hid
          simp only [hrole, hrepresents.holder_of_child hrole, hother]
          exact hsimulates.sendPasswordResetEmail hmem hrepresents _ _ _

theorem changePassword (hsimulates : Simulates settings website directory)
    (hservice : service.Documented settings) (oldPassword newPassword : String) :
    Agree settings
      (Website.changePassword settings service circumstances oldPassword newPassword website)
      (directory.changePassword settings circumstances oldPassword newPassword) := by
  have hcurrent := hsimulates.current hservice circumstances
  unfold Website.changePassword Directory.changePassword
  generalize hstored : service.currentUser circumstances.userName website.users = found at hcurrent ⊢
  generalize directory.current settings circumstances = held at hcurrent ⊢
  cases hcurrent with
  | none => exact ⟨rfl, hsimulates⟩
  | @some stored account hrepresents =>
    simp only [hrepresents.userName, hrepresents.password]
    split_ifs
    · exact ⟨rfl, hsimulates.resetPassword (hservice.mem_of_currentUser hstored) hrepresents newPassword⟩
    · exact ⟨rfl, hsimulates⟩
    · exact ⟨rfl, hsimulates⟩

theorem deleteChild (hsimulates : Simulates settings website directory)
    (hservice : service.Documented settings) (childId : ℤ) :
    Agree settings (Website.deleteChild service circumstances childId website)
      (directory.deleteChild settings circumstances childId) := by
  unfold Website.deleteChild Directory.deleteChild
  rcases hsimulates.currentParent hservice with
    ⟨hnone, hnone'⟩ | ⟨parent, -, held, hparent, hheld, -, hrep⟩
  · rw [hnone, hnone']
    exact ⟨rfl, hsimulates⟩
  · simp only [hparent, hheld]
    have hany : (childrenOf parent website.users).any (·.id == childId) = true ↔
        ∃ child ∈ website.users, child.role = .child parent.id ∧ child.id = childId := by
      simp [childrenOf]
    by_cases hchild : ∃ child ∈ website.users, child.role = .child parent.id ∧ child.id = childId
    · obtain ⟨child, hmem, hrole, hid⟩ := id hchild
      obtain ⟨account, haccount, hrepresents⟩ := hsimulates.table.exists_entry hmem
      have hfound : ∃ name account, directory.accounts name = some account ∧ account.id = childId ∧
          account.holder = .child held.id :=
        ⟨_, account, haccount, hrepresents.id.trans hid,
          (hrepresents.holder_eq_child_iff _).mpr (by rw [hrole, hrep.id])⟩
      rw [if_pos (hany.mpr hchild), if_pos hfound, deleteUser, hservice.deleteUser]
      refine ⟨rfl, hsimulates.delete ?_ ?_⟩
      · intro stored _ account hrepresents
        simp [hrepresents.id]
      · -- What is deleted is a child, which is the parent of nobody.
        intro other hother hnone hgone
        have hsame : other.id = child.id := by simpa [hid] using hgone
        obtain rfl := hsimulates.eq_of_id hother hmem hsame
        simp [StoredUser.parentId_eq_some_iff.mpr hrole] at hnone
    · have hfound : ¬ ∃ name account, directory.accounts name = some account ∧ account.id = childId ∧
          account.holder = .child held.id := by
        rintro ⟨name, account, haccount, hid, hholder⟩
        obtain ⟨stored, hmem, -, hrepresents⟩ := hsimulates.table.exists_row haccount
        rw [hrepresents.holder_eq_child_iff, hrep.id] at hholder
        exact hchild ⟨stored, hmem, hholder, hrepresents.id.symm.trans hid⟩
      rw [if_neg (mt hany.mp hchild), if_neg hfound]
      exact ⟨rfl, hsimulates⟩

end Simulates

theorem foldl_deleteUser (hservice : service.Documented settings) (deleted : List StoredUser)
    (website : Website) :
    deleted.foldl (fun held child ↦ held.deleteUser service child.id) website =
      { website with users := website.users.filter fun stored ↦ deleted.all (·.id != stored.id) } := by
  induction deleted generalizing website with
  | nil => simp
  | cons first rest ih =>
    rw [List.foldl_cons, ih]
    simp [deleteUser, hservice.deleteUser, List.filter_filter, Bool.and_comm, bne_comm]

namespace Simulates

variable {website : Website} {directory : Directory Text}

theorem deleteParent (hsimulates : Simulates settings website directory)
    (hservice : service.Documented settings) :
    Agree settings (Website.deleteParent service circumstances website)
      (directory.deleteParent settings circumstances) := by
  unfold Website.deleteParent Directory.deleteParent
  rcases hsimulates.currentParent hservice with
    ⟨hnone, hnone'⟩ | ⟨parent, hmem, held, hparent, hheld, hrole, hrep⟩
  · rw [hnone, hnone']
    exact ⟨rfl, hsimulates⟩
  · simp only [hparent, hheld, hrep.id, foldl_deleteUser hservice]
    simp only [deleteUser, hservice.deleteUser, List.filter_filter]
    have hgone : ∀ stored ∈ website.users,
        ((stored.id != parent.id &&
          (childrenOf parent website.users).all (·.id != stored.id)) = false ↔
        stored.id = parent.id ∨ stored.role = .child parent.id) := by
      intro stored hstored
      have hchild : (∃ child ∈ childrenOf parent website.users, child.id = stored.id) ↔
          stored.role = .child parent.id := by
        constructor
        · rintro ⟨child, hchild, hid⟩
          obtain ⟨hchildMem, hchildRole⟩ := List.mem_filter.mp hchild
          rw [← hsimulates.eq_of_id hchildMem hstored hid]
          simpa using hchildRole
        · intro hstoredRole
          exact ⟨stored, List.mem_filter.mpr ⟨hstored, by simpa using hstoredRole⟩, rfl⟩
      rw [← hchild]
      by_cases hid : stored.id = parent.id <;> simp [hid]
    refine ⟨rfl, hsimulates.delete ?_ ?_⟩
    · intro stored hstored account hrepresents
      rw [hgone stored hstored, hrepresents.id, hrepresents.holder_eq_child_iff]
    · -- What is deleted is the parent or one of its children, which are the parents of nobody.
      intro other hother hnone hdeleted child hchild hchildOf
      have hother' : other.id = parent.id := by
        refine ((hgone other hother).mp hdeleted).resolve_right fun hotherRole ↦ ?_
        simp [StoredUser.parentId_eq_some_iff.mpr hotherRole] at hnone
      rw [StoredUser.parentId_eq_some_iff, hother'] at hchildOf
      exact (hgone child hchild).mpr (Or.inr hchildOf)

/-! ### Histories -/

theorem action (hsimulates : Simulates settings website directory) (hservice : service.Documented settings)
    (circumstances : Circumstances) (request : Request) :
    Agree settings (Website.action settings service circumstances website request)
      (directory.action settings circumstances request) := by
  cases request with
  | register model => exact hsimulates.register hservice model
  | activate id => exact hsimulates.activate hservice id
  | login name password => exact hsimulates.login hservice name password
  | forgot userName => exact hsimulates.forgot hservice userName
  | changePassword oldPassword newPassword =>
    exact hsimulates.changePassword hservice oldPassword newPassword
  | addChild model => exact hsimulates.addChild hservice model
  | deleteChild childId => exact hsimulates.deleteChild hservice childId
  | deleteParent => exact hsimulates.deleteParent hservice

/-- The transaction is ended alike, since the actions answer alike. -/
theorem serve (hsimulates : Simulates settings website directory) (hservice : service.Documented settings)
    (transaction : TransactionAttribute) (visit : Circumstances × Request) :
    Agree settings (Website.serve settings service transaction website visit)
      (directory.serve settings transaction visit) := by
  obtain ⟨hresponse, hafter⟩ := hsimulates.action hservice visit.1 visit.2
  unfold Website.serve Directory.serve transacted
  rw [hresponse]
  refine ⟨rfl, ?_⟩
  dsimp only
  split_ifs
  · exact hafter
  · exact hsimulates.of_sent _

end Simulates

theorem respond_serve (settings : Settings Text) (hservice : service.Documented settings)
    (transaction : TransactionAttribute) (visits : List (Circumstances × Request)) :
    (respond (Website.serve settings service transaction) {} visits).1 =
        (respond (Directory.serve settings transaction) {} visits).1 ∧
      Simulates settings (respond (Website.serve settings service transaction) {} visits).2
        (respond (Directory.serve settings transaction) {} visits).2 :=
  respond_eq (fun _ _ visit hsimulates ↦ hsimulates.serve hservice transaction visit) Simulates.start
    visits

end Website

end SharpArch.TardisBank
