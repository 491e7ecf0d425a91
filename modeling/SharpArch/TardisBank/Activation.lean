import SharpArch.TardisBank.AccountDirectory

/-!
# The activation of accounts

A parent that registers is sent a link with a key, and its account is active once the link has been
followed. Over every history of requests an account is active exactly when, after the request that
registered it, a request presented its key, was told so and was committed, and the key works as long as it
has not been presented (`activation_run`). No other request makes an account active, whatever it comes
with.
-/

set_option autoImplicit false
set_option relaxedAutoImplicit false

namespace SharpArch.TardisBank

namespace Website

open Foundation.Run Foundation.KeyedTable NHibernate.SessionFactories

variable {Text : Type} {settings : Settings Text} {service : IUserService}
  {transaction : TransactionAttribute} {circumstances : Circumstances} {website : Website}
  {stored : StoredUser} {visit : Circumstances × Request}

section Requests

variable (settings service transaction)

/-- The website after requests. -/
def after (visits : List (Circumstances × Request)) : Website :=
  run (fun website visit ↦ (serve settings service transaction website visit).2) {} visits

/-- The transaction of a request is committed. -/
def IsCommitted (website : Website) (visit : Circumstances × Request) : Prop :=
  (transaction.onActionExecuted visit.1
    (action settings service visit.1 website visit.2).1).isCommitted = true

/-- A request presents a key, is told that an account is active now, and is committed. -/
def Confirms (activationKey : String) (website : Website) (visit : Circumstances × Request) : Prop :=
  (∃ id, visit.2 = .activate (some id) ∧ settings.collate id = settings.collate activationKey) ∧
    (serve settings service transaction website visit).1 = .ok (.view "ActivateConfirm" []) ∧
    IsCommitted settings service transaction website visit

end Requests

/-! ### One request -/

theorem serve_of_isCommitted (hcommitted : IsCommitted settings service transaction website visit) :
    (serve settings service transaction website visit).2 =
      (action settings service visit.1 website visit.2).2 :=
  if_pos hcommitted

theorem serve_of_not_isCommitted (hrolled : ¬ IsCommitted settings service transaction website visit) :
    (serve settings service transaction website visit).2.users = website.users := by
  unfold IsCommitted at hrolled
  rw [serve, transacted, if_neg hrolled]

/-- A request that is committed answers what its action has answered. -/
theorem answer_of_isCommitted (htransaction : transaction.Documented) {result : ActionResult}
    (hcommitted : IsCommitted settings service transaction website visit)
    (hresult : (action settings service visit.1 website visit.2).1 = .ok result) :
    (serve settings service transaction website visit).1 = .ok result := by
  unfold IsCommitted at hcommitted
  rw [hresult] at hcommitted
  show (transaction.onActionExecuted visit.1
    (action settings service visit.1 website visit.2).1).response = .ok result
  rw [hresult]
  cases hresponse : (transaction.onActionExecuted visit.1 (.ok result)).response with
  | error exception =>
    have hrolled := htransaction.rolls_back visit.1 (.ok result) exception hresponse
    exact absurd (hrolled.symm.trans hcommitted) (by simp)
  | ok answered => rw [htransaction.answers visit.1 result answered hresponse]

/-- A result that is answered is that of the action. -/
theorem action_of_answer (htransaction : transaction.Documented) {answered : ActionResult}
    (hanswered : (serve settings service transaction website visit).1 = .ok answered) :
    (action settings service visit.1 website visit.2).1 = .ok answered := by
  change (transaction.onActionExecuted visit.1
    (action settings service visit.1 website visit.2).1).response = .ok answered at hanswered
  cases hresult : (action settings service visit.1 website visit.2).1 with
  | error exception =>
    rw [hresult, htransaction.throws] at hanswered
    cases hanswered
  | ok result =>
    rw [hresult] at hanswered
    rw [htransaction.answers visit.1 result answered hanswered]

variable [DecidableEq Text]

variable (settings service transaction website) in
/-- Where a stored parent comes from when a request has been served: it was stored before, with the same
name, key and activity; the request presents the key it had; or the request registers it. -/
inductive Origin (visit : Circumstances × Request) (stored : StoredUser) : Prop
  | kept (old : StoredUser) (hmem : old ∈ website.users)
      (hname : stored.user.userName = old.user.userName) (hrole : stored.role = old.role)
      (hactive : stored.user.isActive = old.user.isActive)
  | activated (old : StoredUser) (hmem : old ∈ website.users) (id : String)
      (hkey : hasActivationKey settings id old = true)
      (hconfirms : Confirms settings service transaction id website visit)
      (heq : stored = old.activate)
  | registered (model : RegistrationViewModel) (hrequest : visit.2 = .register (some model))
      (hcommitted : IsCommitted settings service transaction website visit)
      (hname : stored.user.userName = model.email) (hrole : stored.role = .parent visit.1.guid)
      (hactive : stored.user.isActive = false)

namespace Origin

theorem of_mem (hmem : stored ∈ website.users) : Origin settings service transaction website visit stored :=
  .kept stored hmem rfl rfl rfl

/-- A user that was found is given a password. -/
theorem of_resetPassword {found : StoredUser} {password : String} (hfound : found ∈ website.users)
    (hmem : stored ∈ (website.update (found.resetPassword password)).users) :
    Origin settings service transaction website visit stored := by
  obtain ⟨other, hother, rfl⟩ := List.mem_map.mp hmem
  split_ifs
  · exact .kept found hfound rfl rfl rfl
  · exact .of_mem hother

theorem of_sendPasswordResetEmail {found : StoredUser} {toAddress whose : String}
    {confirmed : ActionResult} (hfound : found ∈ website.users)
    (hmem : stored ∈ (sendPasswordResetEmail settings circumstances found toAddress whose confirmed
      website).2.users) :
    Origin settings service transaction website visit stored := by
  unfold sendPasswordResetEmail at hmem
  split at hmem
  · exact .of_resetPassword hfound hmem
  · exact .of_resetPassword hfound hmem

/-- A new user is the one that is created. -/
theorem of_registerInternal {model : Option RegistrationViewModel} {usernameTakenMessage viewName : String}
    {createUser : RegistrationViewModel → String → StoredUser × List Email} {confirmed : ActionResult}
    (hservice : service.Documented settings)
    (hsmtp : isNullOrWhiteSpace settings.emailSmtpServer = false)
    (hcreated : ∀ registered password, model = some registered →
      stored.user = (createUser registered password).1.user →
      stored.role = (createUser registered password).1.role →
        Origin settings service transaction website visit stored)
    (hmem : stored ∈ (registerInternal settings service circumstances model usernameTakenMessage createUser
      confirmed viewName website).2.users) :
    Origin settings service transaction website visit stored := by
  unfold registerInternal at hmem
  split at hmem
  · exact .of_mem hmem
  · split at hmem
    · split at hmem
      · exact .of_mem hmem
      · simp only [saveUser, hservice.saveUser] at hmem
        rcases List.mem_append.mp hmem with hold | hnew
        · exact .of_mem hold
        · have hstored := List.mem_singleton.mp hnew
          simp only [hsmtp, Bool.false_eq_true, if_false] at hstored
          exact hcreated _ _ rfl (congrArg (·.user) hstored) (congrArg (·.role) hstored)
    · exact .of_mem hmem

theorem of_forgot (hservice : service.Documented settings) {userName : Option String}
    (hmem : stored ∈ (Website.forgot settings service circumstances userName website).2.users) :
    Origin settings service transaction website visit stored := by
  unfold Website.forgot at hmem
  split at hmem
  · split at hmem
    · exact .of_mem hmem
    · split at hmem
      · exact .of_mem hmem
      · rename_i found hfound
        have hstored : found ∈ website.users := hservice.mem_of_getUserByUserName hfound
        split at hmem
        · split at hmem
          · exact .of_mem hmem
          · exact of_sendPasswordResetEmail hstored hmem
        · exact of_sendPasswordResetEmail hstored hmem
  · exact .of_mem hmem

theorem of_changePassword (hservice : service.Documented settings) {oldPassword newPassword : String}
    (hmem : stored ∈
      (Website.changePassword settings service circumstances oldPassword newPassword website).2.users) :
    Origin settings service transaction website visit stored := by
  unfold Website.changePassword at hmem
  split at hmem
  · exact .of_mem hmem
  · rename_i found hfound
    split at hmem
    · split at hmem
      · exact of_resetPassword (hservice.mem_of_currentUser hfound) hmem
      · exact .of_mem hmem
    · exact .of_mem hmem

/-- The only user with the key is activated, and the request is told so. -/
theorem of_activate (hservice : service.Documented settings) (htransaction : transaction.Documented)
    {id : Option String}
    (hcommitted : IsCommitted settings service transaction website (circumstances, .activate id))
    (hmem : stored ∈ (Website.activate service id website).2.users) :
    Origin settings service transaction website (circumstances, .activate id) stored := by
  unfold Website.activate at hmem
  cases id with
  | none =>
    rw [hservice.getUserByActivationKey_null] at hmem
    exact .of_mem hmem
  | some id =>
    cases hfilter : website.users.filter (hasActivationKey settings id) with
    | nil =>
      rw [hservice.getUserByActivationKey_missing id website.users hfilter] at hmem
      exact .of_mem hmem
    | cons first rest =>
      cases rest with
      | nil =>
        have hsingle := hservice.getUserByActivationKey_single id website.users first hfilter
        rw [hsingle] at hmem
        have hresult : (action settings service circumstances website (.activate (some id))).1 =
            .ok (.view "ActivateConfirm" []) := by
          simp [action, Website.activate, hsingle]
        obtain ⟨hfirst, hkey⟩ := List.mem_filter.mp (hfilter ▸ List.mem_cons_self)
        obtain ⟨other, hother, rfl⟩ := List.mem_map.mp hmem
        split_ifs
        · exact .activated first hfirst id hkey
            ⟨⟨id, rfl, rfl⟩, answer_of_isCommitted htransaction hcommitted hresult, hcommitted⟩ rfl
        · exact .of_mem hother
      | cons second others =>
        rw [hservice.getUserByActivationKey_several id website.users first second others hfilter] at hmem
        exact .of_mem hmem

/-- After a request whose transaction is committed each parent has an origin. -/
theorem of_action (hservice : service.Documented settings) (htransaction : transaction.Documented)
    (hsmtp : isNullOrWhiteSpace settings.emailSmtpServer = false) (hparent : stored.parentId = none)
    (hcommitted : IsCommitted settings service transaction website visit)
    (hmem : stored ∈ (action settings service visit.1 website visit.2).2.users) :
    Origin settings service transaction website visit stored := by
  obtain ⟨circumstances, request⟩ := visit
  cases request with
  | register model =>
    refine of_registerInternal hservice hsmtp ?_ hmem
    rintro registered password rfl huser hrole
    exact .registered registered rfl hcommitted (by rw [huser]; rfl) hrole (by rw [huser]; rfl)
  | activate id => exact of_activate hservice htransaction hcommitted hmem
  | login name password => exact .of_mem hmem
  | forgot userName => exact of_forgot hservice hmem
  | changePassword oldPassword newPassword => exact of_changePassword hservice hmem
  | addChild model =>
    simp only [action, Website.addChild] at hmem
    split at hmem
    · exact .of_mem hmem
    · refine of_registerInternal hservice hsmtp ?_ hmem
      rintro registered password rfl - hrole
      simp [StoredUser.parentId, hrole, createChild] at hparent
  | deleteChild childId =>
    simp only [action, Website.deleteChild, deleteUser, hservice.deleteUser] at hmem
    split at hmem
    · exact .of_mem hmem
    · split at hmem
      · exact .of_mem (List.mem_filter.mp hmem).1
      · exact .of_mem hmem
  | deleteParent =>
    simp only [action, Website.deleteParent] at hmem
    split at hmem
    · exact .of_mem hmem
    · rw [deleteUser, foldl_deleteUser hservice, hservice.deleteUser] at hmem
      exact .of_mem (List.mem_filter.mp (List.mem_filter.mp hmem).1).1

/-- After a request each parent has an origin. -/
theorem of_serve (hservice : service.Documented settings) (htransaction : transaction.Documented)
    (hsmtp : isNullOrWhiteSpace settings.emailSmtpServer = false) (hparent : stored.parentId = none)
    (hmem : stored ∈ (serve settings service transaction website visit).2.users) :
    Origin settings service transaction website visit stored := by
  by_cases hcommitted : IsCommitted settings service transaction website visit
  · rw [serve_of_isCommitted hcommitted] at hmem
    exact of_action hservice htransaction hsmtp hparent hcommitted hmem
  · rw [serve_of_not_isCommitted hcommitted] at hmem
    exact .of_mem hmem

end Origin

/-- A request that is told that an account is active leaves none with the key. -/
theorem Confirms.hasActivationKey (hservice : service.Documented settings)
    (htransaction : transaction.Documented) {activationKey : String}
    (hconfirms : Confirms settings service transaction activationKey website visit)
    (hkey : settings.collate activationKey ≠ settings.collate "")
    (hmem : stored ∈ (serve settings service transaction website visit).2.users) :
    Website.hasActivationKey settings activationKey stored = false := by
  obtain ⟨circumstances, request⟩ := visit
  obtain ⟨⟨id, rfl, hid⟩, hanswer, hcommitted⟩ := hconfirms
  have hresult := action_of_answer htransaction hanswer
  rw [serve_of_isCommitted hcommitted] at hmem
  have hsame : Website.hasActivationKey settings id = Website.hasActivationKey settings activationKey := by
    funext other
    simp only [Website.hasActivationKey, hid]
  simp only [action, Website.activate] at hresult hmem
  cases hfilter : website.users.filter (Website.hasActivationKey settings id) with
  | nil =>
    rw [hservice.getUserByActivationKey_missing id website.users hfilter] at hresult
    simp at hresult
  | cons first rest =>
    cases rest with
    | cons second others =>
      rw [hservice.getUserByActivationKey_several id website.users first second others hfilter] at hresult
      cases hresult
    | nil =>
      rw [hservice.getUserByActivationKey_single id website.users first hfilter] at hmem
      obtain ⟨other, hother, rfl⟩ := List.mem_map.mp hmem
      rw [hsame] at hfilter
      split_ifs with hwritten
      · -- The key of an active account is empty.
        unfold Website.hasActivationKey StoredUser.activate
        cases first.role with
        | parent key => simpa using hkey.symm
        | child parentId => rfl
      · by_contra hhas
        have hfound : other ∈ website.users.filter (Website.hasActivationKey settings activationKey) :=
          List.mem_filter.mpr ⟨hother, by simpa using hhas⟩
        rw [hfilter, List.mem_singleton] at hfound
        exact hwritten (by simp [hfound, StoredUser.activate])

/-! ### Histories -/

variable (settings service transaction) in
/-- A parent has been registered by a committed request under its name, and waits for the key that the
request came with exactly as long as no request that is committed is told that it is active. -/
def IsRegistered (visits : List (Circumstances × Request)) (parent : StoredUser) : Prop :=
  ∃ before registration since, visits = before ++ registration :: since ∧
    (∃ model, registration.2 = .register (some model) ∧ parent.user.userName = model.email) ∧
    IsCommitted settings service transaction (after settings service transaction before) registration ∧
    (parent.user.isActive = false → parent.role = .parent registration.1.guid) ∧
    (parent.user.isActive = false ↔
      EveryCall (fun website visit ↦ (serve settings service transaction website visit).2)
        (fun website visit ↦ ¬ Confirms settings service transaction registration.1.guid website visit)
        (after settings service transaction (before ++ [registration])) since)

omit [DecidableEq Text] in
theorem after_append_singleton (visits : List (Circumstances × Request))
    (visit : Circumstances × Request) :
    after settings service transaction (visits ++ [visit]) =
      (serve settings service transaction (after settings service transaction visits) visit).2 :=
  run_append visits [visit]

omit [DecidableEq Text] in
/-- One more request, after which a parent that was registered waits if it did before and the request is
not told that it is active. -/
theorem IsRegistered.append_singleton {visits : List (Circumstances × Request)} {old parent : StoredUser}
    (hold : IsRegistered settings service transaction visits old)
    (hname : parent.user.userName = old.user.userName)
    (hrole : parent.user.isActive = false → parent.role = old.role)
    (hwaits : ∀ registration ∈ visits,
      (old.user.isActive = false → old.role = .parent registration.1.guid) →
      (parent.user.isActive = false ↔ old.user.isActive = false ∧
        ¬ Confirms settings service transaction registration.1.guid
          (after settings service transaction visits) visit)) :
    IsRegistered settings service transaction (visits ++ [visit]) parent := by
  obtain ⟨before, registration, since, rfl, ⟨model, hrequest, hmodel⟩, hcommitted, hkey, hiff⟩ := hold
  have hwaits' := hwaits registration (List.mem_append_right _ List.mem_cons_self) hkey
  refine ⟨before, registration, since ++ [visit], by simp, ⟨model, hrequest, hname.trans hmodel⟩,
    hcommitted, ?_, ?_⟩
  · intro hactive
    exact (hrole hactive).trans (hkey (hwaits'.mp hactive).1)
  · have hrun : run (fun website visit ↦ (serve settings service transaction website visit).2)
        (after settings service transaction (before ++ [registration])) since =
          after settings service transaction (before ++ registration :: since) := by
      unfold after
      rw [← run_append, ← List.append_cons]
    rw [everyCall_append, hrun, hwaits', hiff]
    exact and_congr_right fun _ ↦ (and_iff_left trivial).symm

/-- When e-mails are sent and no new key is taken for the empty text, every stored parent has been
registered. -/
theorem isRegistered_of_mem (settings : Settings Text) (hservice : service.Documented settings)
    (htransaction : transaction.Documented)
    (hsmtp : isNullOrWhiteSpace settings.emailSmtpServer = false)
    (visits : List (Circumstances × Request))
    (hguids : ∀ visit ∈ visits, settings.collate visit.1.guid ≠ settings.collate "") :
    ∀ parent ∈ (after settings service transaction visits).users, parent.parentId = none →
      IsRegistered settings service transaction visits parent := by
  induction visits using List.reverseRecOn with
  | nil =>
    intro parent hmem
    exact absurd hmem List.not_mem_nil
  | append_singleton visits visit ih =>
    intro parent hmem hparent
    have hguids' : ∀ visit ∈ visits, settings.collate visit.1.guid ≠ settings.collate "" :=
      fun other hother ↦ hguids other (List.mem_append_left _ hother)
    rw [after_append_singleton] at hmem
    cases Origin.of_serve hservice htransaction hsmtp hparent hmem with
    | registered model hrequest hcommitted hname hrole hactive =>
      refine ⟨visits, visit, [], rfl, ⟨model, hrequest, hname⟩, hcommitted, fun _ ↦ hrole, ?_⟩
      exact iff_of_true hactive trivial
    | kept old hmemOld hname hrole hactive =>
      have hparentOld : old.parentId = none := by
        rw [StoredUser.parentId, ← hrole]
        exact hparent
      refine (ih hguids' old hmemOld hparentOld).append_singleton hname (fun _ ↦ hrole) ?_
      intro registration hregistration hkey
      rw [hactive]
      refine (and_iff_left_of_imp fun hwaiting hconfirms ↦ ?_).symm
      -- The account would have the key no longer.
      have hno := hconfirms.hasActivationKey hservice htransaction (hguids' registration hregistration) hmem
      simp [hasActivationKey, hrole, hkey hwaiting] at hno
    | activated old hmemOld id hkeyOld hconfirms heq =>
      obtain ⟨key, hroleOld, -⟩ := exists_parent_of_hasActivationKey hkeyOld
      have hactive : parent.user.isActive = true := by rw [heq]; rfl
      have hparentOld : old.parentId = none := StoredUser.parentId_of_parent hroleOld
      refine (ih hguids' old hmemOld hparentOld).append_singleton (by rw [heq]; rfl)
        (fun hwaiting ↦ by simp [hactive] at hwaiting) ?_
      intro registration _ hkey
      refine iff_of_false (by simp [hactive]) ?_
      rintro ⟨hwaiting, hnot⟩
      -- The key presented is the one the account waited for.
      have hsame : settings.collate registration.1.guid = settings.collate id := by
        simpa [hasActivationKey, hkey hwaiting] using hkeyOld
      obtain ⟨⟨presented, hrequest, hpresented⟩, hanswered⟩ := hconfirms
      exact hnot ⟨⟨presented, hrequest, hpresented.trans hsame.symm⟩, hanswered⟩

theorem simulates_after (settings : Settings Text) (hservice : service.Documented settings)
    (transaction : TransactionAttribute) (visits : List (Circumstances × Request)) :
    ∃ directory, Simulates settings (after settings service transaction visits) directory := by
  have hsimulates := (respond_serve settings hservice transaction visits).2
  rw [respond_snd] at hsimulates
  exact ⟨_, hsimulates⟩

/-- The only account with a key is found by it, and is activated alone. -/
theorem serve_activate (hservice : service.Documented settings) (htransaction : transaction.Documented)
    {activationKey : String} {parent : StoredUser} (hnodup : website.users.Nodup)
    (hmem : parent ∈ website.users) (hkey : hasActivationKey settings activationKey parent = true)
    (honly : ∀ other ∈ website.users, hasActivationKey settings activationKey other = true →
      other = parent)
    (hvalid : circumstances.modelStateIsValid = true) (hcommits : circumstances.commitFails = false) :
    serve settings service transaction website (circumstances, .activate (some activationKey)) =
      (.ok (.view "ActivateConfirm" []), website.update parent.activate) := by
  have hfilter : website.users.filter (hasActivationKey settings activationKey) = [parent] := by
    refine List.perm_singleton.mp
      ((List.perm_ext_iff_of_nodup (hnodup.filter _) (List.nodup_singleton _)).mpr fun other ↦ ?_)
    rw [List.mem_filter, List.mem_singleton]
    constructor
    · rintro ⟨hother, hotherKey⟩
      exact honly other hother hotherKey
    · rintro rfl
      exact ⟨hmem, hkey⟩
  have hsingle := hservice.getUserByActivationKey_single activationKey website.users parent hfilter
  have hends := htransaction.commits circumstances (.view "ActivateConfirm" [])
    (by simp [modelStays, hvalid]) hcommits
  simp [serve, action, activate, hsingle, transacted, hends]

/-- For every history of requests that come with new keys, when e-mails are sent: each parent that is
stored was registered under its name by one of the requests that are committed, and its account waits
exactly as long as no request after that presents the key that was made for it, is told that the account is
active, and is committed. As long as it waits, a request that presents the key is told so, and activates
this account and nothing else. -/
theorem activation_run (settings : Settings Text) (service : IUserService)
    (hservice : service.Documented settings) (transaction : TransactionAttribute)
    (htransaction : transaction.Documented)
    (hsmtp : isNullOrWhiteSpace settings.emailSmtpServer = false)
    (visits : List (Circumstances × Request))
    (hguids : (settings.collate "" :: visits.map fun visit ↦ settings.collate visit.1.guid).Nodup) :
    ∀ parent ∈ (after settings service transaction visits).users, ∀ activationKey,
      parent.role = .parent activationKey →
      IsRegistered settings service transaction visits parent ∧
      (parent.user.isActive = false → ∀ circumstances : Circumstances,
        circumstances.modelStateIsValid = true → circumstances.commitFails = false →
        serve settings service transaction (after settings service transaction visits)
            (circumstances, .activate (some activationKey)) =
          (.ok (.view "ActivateConfirm" []),
            (after settings service transaction visits).update parent.activate)) := by
  obtain ⟨hnew, hdistinct⟩ := List.nodup_cons.mp hguids
  have hguids' : ∀ visit ∈ visits, settings.collate visit.1.guid ≠ settings.collate "" :=
    fun visit hvisit hsame ↦ hnew (hsame ▸ List.mem_map_of_mem hvisit)
  have hregistered := isRegistered_of_mem settings hservice htransaction hsmtp visits hguids'
  obtain ⟨directory, hsimulates⟩ := simulates_after settings hservice transaction visits
  intro parent hmem activationKey hrole
  have hparent : parent.parentId = none := StoredUser.parentId_of_parent hrole
  refine ⟨hregistered parent hmem hparent, fun hwaiting circumstances hvalid hcommits ↦ ?_⟩
  have hnodup : (after settings service transaction visits).users.Nodup := hsimulates.ids.of_map
  refine serve_activate hservice htransaction hnodup hmem (by simp [hasActivationKey, hrole]) ?_ hvalid
    hcommits
  intro other hother hkey
  obtain ⟨otherKey, hotherRole, hsame⟩ := exists_parent_of_hasActivationKey hkey
  obtain ⟨before, registration, since, hsplit, ⟨model, hrequest, hname⟩, -, hwaits, -⟩ :=
    hregistered parent hmem hparent
  obtain ⟨before', registration', since', hsplit', ⟨model', hrequest', hname'⟩, -, hwaits', -⟩ :=
    hregistered other hother (StoredUser.parentId_of_parent hotherRole)
  have hvisit : registration ∈ visits := by simp [hsplit]
  have hvisit' : registration' ∈ visits := by simp [hsplit']
  obtain rfl := Role.parent.inj (hrole.symm.trans (hwaits hwaiting))
  -- An active account has the empty key, which is not new.
  have hotherWaits : other.user.isActive = false := by
    by_contra hactive
    obtain ⟨account, -, hrepresents⟩ := hsimulates.table.exists_entry hother
    have hempty := hrepresents.parent_key otherKey hotherRole (by simpa using hactive)
    rw [hempty] at hsame
    exact hguids' registration hvisit hsame.symm
  obtain rfl := Role.parent.inj (hotherRole.symm.trans (hwaits' hotherWaits))
  obtain rfl := List.inj_on_of_nodup_map hdistinct hvisit' hvisit hsame
  obtain rfl := Option.some.inj (Request.register.inj (hrequest.symm.trans hrequest'))
  exact List.inj_on_of_nodup_map hsimulates.table.nodup hother hmem
    (congrArg settings.collate (hname'.trans hname.symm))

/-- Two parents register, and one of them follows the link. -/
theorem activation_run_two :
    let settings : Settings String :=
      { emailSmtpServer := some "smtp", hashPasswordForStoringInConfigFile := id, collate := id }
    let service := UserService.awaited settings
    let transaction := TransactionAttribute.rollingBack true
    let registers (guid email : String) : Circumstances × Request :=
      ({ guid := guid }, .register (some { email := email, name := "Parent", password := "secret" }))
    let visits := [registers "7d" "ann", registers "c4" "bob", ({ guid := "e0" }, .activate (some "7d"))]
    let reached := after settings service transaction visits
    reached.users.map (fun stored ↦ (stored.user.userName, stored.user.isActive)) =
        [("ann", true), ("bob", false)] ∧
      (serve settings service transaction reached ({ guid := "19" }, .activate (some "c4"))).1 =
        .ok (.view "ActivateConfirm" []) := by
  intro settings service transaction registers visits reached
  refine ⟨by decide, ?_⟩
  let bob : StoredUser :=
    { id := 2, user := { name := "Parent", userName := "bob", password := "bobsecret" },
      role := .parent "c4" }
  have hbob : bob ∈ reached.users := by decide
  have hactivates := (activation_run settings service (UserService.documented settings) transaction
    (TransactionAttribute.documented_rollingBack true) (by decide) visits (by decide) _ hbob "c4" rfl).2
    rfl { guid := "19" } rfl rfl
  rw [hactivates]

end Website

end SharpArch.TardisBank
