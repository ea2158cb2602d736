import Starfall.Server.ConsoleTable

/-! The objects that `MaxConsoleID` and `Login` send.  They are JSON, and their strings stand for
the names of the login.  Both are texts of bytes, and whether these are UTF-8 is left out. -/

namespace Starfall.Messages

open ProofKit Vars

variable (numbers : NumberFormatter) (storage : Storage)

/-- The object of `LoginHTTPRequest::MaxConsoleID`. -/
def maxText (maxID : UInt32) : Str := stringifyObject numbers (set [] "max" (.number maxID)) 0

/-- The object of `LoginHTTPRequest::Login`. -/
def loginText (loginStruct : LoginStruct) : Str :=
  stringifyObject numbers (set (set (set (set [] "userid" (.number loginStruct.userid)) "usertype"
    (.number loginStruct.usertype)) "username" (.string loginStruct.username)) "password"
    (.string loginStruct.password)) 0

/-- What the web server writes, with a table for its pages. -/
def withTexts (poco : Http.Poco) (rows : List Str) : Http.Poco :=
  { withTable numbers storage poco rows with max := maxText numbers, login := loginText numbers }

theorem parse_maxText (maxID : UInt32) :
    Json.parse (maxText numbers maxID) =
      some (.object [(Str.ofString "max", .number (numbers.format maxID))]) := by
  have hobj : set [] "max" (.number maxID) = [(Str.ofString "max", .number maxID)] := rfl
  rw [maxText, hobj, parse_stringifyObject numbers]
  · simp [jsonMembers, jsonView]
  · simp only [List.forall_mem_cons]
    decide
  · simp only [List.forall_mem_cons]
    exact ⟨.number, List.forall_mem_nil _⟩

/-- From the first row on, a request for the greatest id gets it as JSON. -/
theorem max_answered (database : Http.Database) (poco : Http.Poco) (rows : List Str) {n : Nat}
    (hrows : database.console = some n) (hmax : Console.maxConsoleID n ≠ 0) :
    ∃ text, (Http.maxConsoleID (withTexts numbers storage poco rows)).on ⟨.fresh, database⟩ =
        (.ok true, Http.sent database "application/json" text) ∧
      Json.parse text = some (.object
        [(Str.ofString "max", .number (numbers.format (Console.maxConsoleID n)))]) := by
  refine ⟨maxText numbers (Console.maxConsoleID n), ?_, parse_maxText numbers _⟩
  rw [Http.on_maxConsoleID, hrows]
  exact if_neg hmax

/-- The value that a login is sent as. -/
def shownLogin (loginStruct : LoginStruct) : Json.Value :=
  .object [(Str.ofString "password", .string (loginStruct.password.flatMap escapeChar)),
    (Str.ofString "userid", .number (numbers.format loginStruct.userid)),
    (Str.ofString "username", .string (loginStruct.username.flatMap escapeChar)),
    (Str.ofString "usertype", .number (numbers.format loginStruct.usertype))]

theorem parse_loginText {loginStruct : LoginStruct}
    (husername : 0 ∉ loginStruct.username ∧ ¬Framed loginStruct.username)
    (hpassword : 0 ∉ loginStruct.password ∧ ¬Framed loginStruct.password) :
    Json.parse (loginText numbers loginStruct) = some (shownLogin numbers loginStruct) := by
  have hobj : set (set (set (set [] "userid" (.number loginStruct.userid)) "usertype"
      (.number loginStruct.usertype)) "username" (.string loginStruct.username)) "password"
      (.string loginStruct.password) =
        [(Str.ofString "password", .string loginStruct.password),
          (Str.ofString "userid", .number loginStruct.userid),
          (Str.ofString "username", .string loginStruct.username),
          (Str.ofString "usertype", .number loginStruct.usertype)] := rfl
  rw [loginText, hobj, parse_stringifyObject numbers]
  · simp [jsonMembers, jsonView, shownLogin]
  · simp only [List.forall_mem_cons]
    decide
  · simp only [List.forall_mem_cons]
    exact ⟨.escaped hpassword.1 hpassword.2, .number, .escaped husername.1 husername.2, .number,
      List.forall_mem_nil _⟩

/-- The response to a login that is found is JSON, and its strings stand for the names that were
sent. -/
theorem login_answered (database : Http.Database) (poco : Http.Poco) (req : Http.Request)
    (rows : List Str) (hshort : req.contentLength < UInt32.size) {loginStruct : LoginStruct}
    (hfound : Http.found database poco req = .ok (some loginStruct))
    (husername : 0 ∉ loginStruct.username ∧ ¬Framed loginStruct.username)
    (hpassword : 0 ∉ loginStruct.password ∧ ¬Framed loginStruct.password) :
    ∃ text, (Http.login (withTexts numbers storage poco rows) req).on ⟨.fresh, database⟩ =
        (.ok true, Http.sent database "application/json" text) ∧
      Json.parse text = some (shownLogin numbers loginStruct) ∧
      Json.decode (loginStruct.username.flatMap escapeChar) = some loginStruct.username ∧
      Json.decode (loginStruct.password.flatMap escapeChar) = some loginStruct.password := by
  have hlogin : Http.found database (withTexts numbers storage poco rows) req =
      .ok (some loginStruct) := hfound
  refine ⟨loginText numbers loginStruct, ?_, parse_loginText numbers husername hpassword,
    decode_escape husername.1, decode_escape hpassword.1⟩
  rw [Http.on_login _ _ _ hshort, hlogin]
  rfl

/-! The login of a user whose password has a quote. -/

def oneLogin : Http.Database :=
  { Http.emptyDatabase with login := fun username password => some [⟨7, 1, username, password⟩] }

/-- The parameters of `username=root&password="hi`. -/
def rootPoco : Http.Poco :=
  { Http.bare.poco with
    parameters := fun _ name =>
      if name = Str.ofString "username" then some rootLogin.username
      else if name = Str.ofString "password" then some rootLogin.password
      else none }

def loginRequest : Http.Request :=
  ⟨Str.ofString "/login", 26, Str.ofString "username=root&password=%22hi"⟩

theorem root_answered : ∃ text,
    (Http.login (withTexts decimal cString rootPoco []) loginRequest).on ⟨.fresh, oneLogin⟩ =
        (.ok true, Http.sent oneLogin "application/json" text) ∧
      Json.parse text = some (shownLogin decimal
        { rootLogin with userid := 7, usertype := 1 }) := by
  have hfound : Http.found oneLogin rootPoco loginRequest =
      .ok (some { rootLogin with userid := 7, usertype := 1 }) := rfl
  obtain ⟨text, hsent, hjson, -⟩ := login_answered decimal cString oneLogin rootPoco loginRequest []
    (by decide) hfound (by decide) (by decide)
  exact ⟨text, hsent, hjson⟩

end Starfall.Messages
