import SharpArch.TardisBank.Account

/-!
# Users and their messages

A user keeps the newest messages that were sent to it. `SendMessage` stores the message before it makes
the event to publish, and the event throws when there is no text; so a message without a text is kept and
not published.

Over any calls, whichever of them throw, the texts a user keeps are those of the last messages sent with a
mediator, reading changes none of them, and what was published is every text among them that there was,
each once and in order (`messages_run`).
-/

set_option autoImplicit false
set_option relaxedAutoImplicit false

namespace SharpArch.TardisBank

open Foundation Foundation.Run Platform

/-- A `Message`. Its identifier is zero until it is saved. -/
structure Message where
  id : ℤ
  date : DateTime
  text : Option String
  hasBeenRead : Bool
  deriving DecidableEq

/-- A `User`, with what the mediator has been given to publish on its behalf. -/
structure User where
  name : String
  userName : String
  password : String
  isActive : Bool := false
  messages : List Message := []
  published : List String := []
  deriving DecidableEq

namespace User

def maxMessages : ℕ := 20

/-- `RemoveOldMessages`. `Remove` finds the first message, which is equal to itself. -/
def removeOldMessages (user : User) : User :=
  if user.messages.length ≤ maxMessages then user else { user with messages := user.messages.tail }

/-- `SendMessage`, on the given day, with a mediator or without one. -/
def sendMessage (today : DateTime) (text : Option String) (hasMediator : Bool) (user : User) :
    Except Exn Unit × User :=
  if hasMediator then
    let kept := removeOldMessages
      { user with
        messages := user.messages ++
          [{ id := 0, date := today, text := text, hasBeenRead := false }] }
    match text with
    | none => (.error (.argumentNull "message"), kept)
    | some message => (.ok (), { kept with published := kept.published ++ [message] })
  else (.error (.argumentNull "mediator"), user)

def noMessage (messageId : ℤ) (userName : String) : String :=
  "No message with Id " ++ toString messageId ++ " found for user '" ++ userName ++ "'"

/-- `ReadMessage`: `SingleOrDefault` throws when several messages have the identifier. -/
def readMessage (messageId : ℤ) (user : User) : Except Exn Unit × User :=
  match user.messages.filter (·.id == messageId) with
  | [] => (.error (.tardisBank (noMessage messageId user.userName)), user)
  | [_] =>
    (.ok (), { user with
      messages := user.messages.map fun message ↦
        if message.id == messageId then { message with hasBeenRead := true } else message })
  | _ :: _ :: _ => (.error .invalidOperation, user)

/-- A call on a user, or the saving of its messages, which gives each of them an identifier. -/
inductive Call
  | sendMessage (today : DateTime) (text : Option String) (hasMediator : Bool)
  | readMessage (messageId : ℤ)
  | save (ids : ℕ → ℤ)

def step (user : User) : Call → User
  | .sendMessage today text hasMediator => (user.sendMessage today text hasMediator).2
  | .readMessage messageId => (user.readMessage messageId).2
  | .save ids =>
    { user with messages := user.messages.mapIdx fun position message ↦ { message with id := ids position } }

/-- The text of a message that a call stores. -/
def Call.sent : Call → Option (Option String)
  | .sendMessage _ text true => some text
  | _ => none

variable {user : User}

/-- The texts of the messages of a user. -/
def texts (user : User) : List (Option String) := user.messages.map (·.text)

theorem texts_removeOldMessages (user : User) :
    (removeOldMessages user).texts =
      if user.texts.length ≤ maxMessages then user.texts else user.texts.tail := by
  unfold removeOldMessages texts
  rw [List.length_map]
  split_ifs
  · rfl
  · exact List.map_tail

theorem published_removeOldMessages (user : User) :
    (removeOldMessages user).published = user.published := by
  unfold removeOldMessages
  split_ifs <;> rfl

/-- Reading changes no text. -/
theorem texts_readMessage (messageId : ℤ) (user : User) :
    (user.readMessage messageId).2.texts = user.texts ∧
      (user.readMessage messageId).2.published = user.published := by
  unfold readMessage
  split
  · exact ⟨rfl, rfl⟩
  · refine ⟨?_, rfl⟩
    rw [texts, List.map_map]
    refine List.map_congr_left fun message _ ↦ ?_
    show (if message.id == messageId then { message with hasBeenRead := true } else message).text =
      message.text
    split_ifs <;> rfl
  · exact ⟨rfl, rfl⟩

/-- Saving changes no text. -/
theorem texts_save (ids : ℕ → ℤ) (user : User) : (user.step (.save ids)).texts = user.texts := by
  refine List.ext_getElem (by simp [step, texts]) fun position _ _ ↦ ?_
  simp [step, texts]

/-- A message is stored as soon as there is a mediator, and published if it has a text. -/
theorem texts_sendMessage (today : DateTime) (text : Option String) (user : User) :
    (user.sendMessage today text true).2.texts = BoundedLog.add maxMessages user.texts text ∧
      (user.sendMessage today text true).2.published = user.published ++ text.toList := by
  have htexts := texts_removeOldMessages
    { user with
      messages := user.messages ++ [{ id := 0, date := today, text := text, hasBeenRead := false }] }
  have hpublished := published_removeOldMessages
    { user with
      messages := user.messages ++ [{ id := 0, date := today, text := text, hasBeenRead := false }] }
  simp only [texts, List.map_append, List.map_cons, List.map_nil] at htexts
  cases text with
  | none => exact ⟨htexts, by simpa [sendMessage] using hpublished⟩
  | some message => exact ⟨htexts, congrArg (· ++ [message]) hpublished⟩

/-- Calls of any number and kind on a new user, whichever of them throw: the user keeps the last twenty
texts that were sent with a mediator, and exactly those of all of them that are no null have been
published, in order. -/
theorem messages_run (name userName password : String) (calls : List Call) :
    let user := run step { name := name, userName := userName, password := password } calls
    user.texts = (calls.filterMap Call.sent).rtake 20 ∧
      user.published = (calls.filterMap Call.sent).filterMap id := by
  intro user
  suffices hlog : user.texts = (BoundedLog.addAll maxMessages (calls.filterMap Call.sent)).2 ∧
      user.published = (calls.filterMap Call.sent).filterMap id by
    rw [BoundedLog.addAll_eq (by decide)] at hlog
    exact hlog
  induction calls using List.reverseRecOn with
  | nil => exact ⟨rfl, rfl⟩
  | append_singleton calls call ih =>
    obtain ⟨htexts, hpublished⟩ := ih
    have hstep : user = step (run step
        { name := name, userName := userName, password := password } calls) call :=
      run_append calls [call]
    rw [hstep, List.filterMap_append]
    cases call with
    | save ids =>
      rw [texts_save, List.filterMap_cons_none rfl, List.filterMap_nil, List.append_nil]
      exact ⟨htexts, hpublished⟩
    | readMessage messageId =>
      obtain ⟨hsame, hsame'⟩ := texts_readMessage messageId
        (run step { name := name, userName := userName, password := password } calls)
      rw [List.filterMap_cons_none rfl, List.filterMap_nil, List.append_nil, step, hsame, hsame']
      exact ⟨htexts, hpublished⟩
    | sendMessage today text hasMediator =>
      cases hasMediator with
      | false =>
        rw [List.filterMap_cons_none rfl, List.filterMap_nil, List.append_nil]
        exact ⟨htexts, hpublished⟩
      | true =>
        obtain ⟨hsent, hpublishes⟩ := texts_sendMessage today text
          (run step { name := name, userName := userName, password := password } calls)
        have hone : [Call.sendMessage today text true].filterMap Call.sent = [text] := rfl
        rw [hone, BoundedLog.addAll_concat, step, hsent, hpublishes, htexts, hpublished,
          List.filterMap_append]
        refine ⟨rfl, ?_⟩
        cases text <;> rfl

end User

end SharpArch.TardisBank
