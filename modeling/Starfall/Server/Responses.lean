import Starfall.ProofKit.Json
import Starfall.Server.Http

/-! What `handleRequest` commits.  A URI that is in neither map gets the status 200, because the
status is changed after the response was sent, and some handlers return without a response. -/

namespace Starfall.Http

open ProofKit

/-- A response with a body that was sent with the status 200. -/
def sent (database : Database) (contentType : String) (body : Str) : State where
  response := ⟨200, some (Str.ofString contentType),
    some ⟨200, some (Str.ofString contentType)⟩, body⟩
  database

variable (database : Database) (poco : Poco) (req : Request)

theorem on_maxConsoleID :
    (maxConsoleID poco).on ⟨.fresh, database⟩ =
      match database.console with
      | some rows =>
        if Console.maxConsoleID rows = 0 then (.ok false, sent database "application/json" [])
        else
          (.ok true, sent database "application/json" (poco.max (Console.maxConsoleID rows)))
      | none => (.error .poco, sent database "application/json" []) := by
  cases h : database.console with
  | none => simp [maxConsoleID, tryMaxConsoleID, on_send, Response.fresh, h, sent]
  | some rows =>
    by_cases hmax : Console.maxConsoleID rows = 0 <;>
      simp [maxConsoleID, tryMaxConsoleID, on_send, Response.fresh, h, hmax, sent]

/-- An insertion whose query works makes a new database. -/
def Inserts (insertFunc : Str → Web Bool) (after : Option Database) : Prop :=
  ∀ response, (insertFunc req.body).on ⟨response, database⟩ =
    match after with
    | some database => (.ok true, ⟨response, database⟩)
    | none => (.error .poco, ⟨response, database⟩)

variable {database req}

theorem on_insertOperation {insertFunc : Str → Web Bool} {after : Option Database}
    (h : Inserts database req insertFunc after) :
    (insertOperation insertFunc req).on ⟨.fresh, database⟩ =
      if req.contentLength ≤ 0 then (.ok false, ⟨.fresh, database⟩)
      else if UInt32.size ≤ req.contentLength then
        (.error (.undefined (.outOfRange (req.contentLength.toNat % UInt32.size))),
          ⟨.fresh, database⟩)
      else
        match after with
        | some database => (.ok true, sent database "application/json" (Str.ofString "{}
"))
        | none => (.error .poco, ⟨.fresh, database⟩) := by
  by_cases hpos : req.contentLength ≤ 0
  · simp [insertOperation, hpos, Int.not_lt.mpr hpos]
  · by_cases hlong : UInt32.size ≤ req.contentLength
    · simp only [insertOperation, Request.read, if_neg hpos, gt_iff_lt, Int.not_le.mp hpos,
        hlong, if_true, on_bind, on_throw]
    · simp only [insertOperation, Request.read, if_neg hpos, gt_iff_lt, Int.not_le.mp hpos,
        hlong, if_true, if_false, on_bind, on_pure, h .fresh]
      cases after with
      | none => rfl
      | some database => simp [on_send, Response.fresh, sent]

theorem inserts_itemType : Inserts database req tryItemType (database.itemTypes.map fun itemTypes =>
    { database with itemTypes := some (itemTypes ++ [req.body]) }) := by
  intro response
  cases h : database.itemTypes with
  | none => simp [tryItemType, h]
  | some itemTypes => simp [tryItemType, h]

variable (database req)

/-- What `Config::Appearance` leaves of a database, unless it throws. -/
def Database.logged : Option Database :=
  if database.appearance then
    if database.scripts then
      database.console.map fun rows => { database with console := some (rows + 1) }
    else some database
  else none

/-- The parameters of a request. -/
def params : Str → Option Str :=
  if req.contentLength > 0 then poco.parameters req.body else fun _ => none

theorem on_readNameValueCollection (s : State) :
    (readNameValueCollection poco req).on s =
      if UInt32.size ≤ req.contentLength then
        (.error (.undefined (.outOfRange (req.contentLength.toNat % UInt32.size))), s)
      else (.ok (params poco req), s) := by
  by_cases hpos : req.contentLength > 0
  · by_cases hlong : UInt32.size ≤ req.contentLength
    · simp only [readNameValueCollection, Request.read, hpos, hlong, if_true, on_bind, on_throw]
    · simp only [readNameValueCollection, Request.read, params, hpos, hlong, if_true, if_false,
        on_bind, on_pure]
  · have hshort : ¬UInt32.size ≤ req.contentLength := by
      simp only [UInt32.size]
      omega
    simp only [readNameValueCollection, params, if_neg hpos, if_neg hshort, on_pure]

/-- The login that the database finds for the parameters of a request, unless its query throws. -/
def found : Except Exception (Option LoginStruct) :=
  match params poco req (Str.ofString "username"), params poco req (Str.ofString "password") with
  | some username, some password =>
    match database.login username password with
    | some logins =>
      .ok (loginOf logins { state := 0, userid := 0, usertype := 0, username, password })
    | none => .error .poco
  | _, _ => .ok none

theorem on_login (hshort : req.contentLength < UInt32.size) :
    (login poco req).on ⟨.fresh, database⟩ =
      match found database poco req with
      | .ok (some loginStruct) =>
        (.ok true, sent database "application/json" (poco.login loginStruct))
      | .ok none => (.ok false, ⟨.fresh, database⟩)
      | .error e => (.error e, ⟨.fresh, database⟩) := by
  rw [login, on_bind, on_readNameValueCollection, if_neg (Int.not_le.mpr hshort)]
  dsimp only
  rw [found]
  cases params poco req (Str.ofString "username") with
  | none => rfl
  | some username =>
    cases params poco req (Str.ofString "password") with
    | none => rfl
    | some password =>
      cases hlogins : database.login username password with
      | none => simp [tryLogin, hlogins]
      | some logins =>
        cases hlogin : loginOf logins ⟨0, 0, 0, username, password⟩ with
        | none => simp [tryLogin, hlogins, hlogin]
        | some loginStruct =>
          simp [tryLogin, hlogins, hlogin, on_send, Response.fresh, sent]

theorem on_tryConsole {s : State} {rows : Nat} (h : s.database.console = some rows)
    (nRows offset : UInt32) :
    (tryConsole poco nRows offset).on s =
      match Console.tryConsole rows nRows offset with
      | .error fault => (.error (.undefined fault), s)
      | .ok none => (.ok false, s)
      | .ok (some page) =>
        match poco.page page with
        | some text =>
          (.ok true, { s with response := { s.response with body := s.response.body ++ text } })
        | none => (.error .poco, s) := by
  rw [tryConsole, on_bind, on_table, h]
  dsimp only
  rcases Console.tryConsole rows nRows offset with fault | page
  · rfl
  · cases page with
    | none => rfl
    | some page => cases hpage : poco.page page <;> simp [hpage]

/-- What the database answers to the query of `Console` for a table of that many rows. -/
def asked (rows : Nat) : Except Fault (Option Console.Page) :=
  let asks := window poco req.uri (params poco req) (Console.maxConsoleID rows)
  Console.tryConsole rows asks.1 asks.2

/-- The difference of a maximum and an offset as `int`s. -/
def distance (maxID offset : UInt32) : Int := maxID.toInt32.toInt - offset.toInt32.toInt

theorem on_console (hshort : req.contentLength < UInt32.size) :
    (console poco req).on ⟨.fresh, database⟩ =
      match database.console with
      | none => (.error .poco, ⟨.fresh, database⟩)
      | some rows =>
        match asked poco req rows with
        | .error fault => (.error (.undefined fault), sent database "application/json" [])
        | .ok none => (.ok false, sent database "application/json" (Str.ofString "{}"))
        | .ok (some page) =>
          match poco.page page with
          | some text => (.ok true, sent database "application/json" text)
          | none => (.error .poco, sent database "application/json" []) := by
  rw [console, on_bind, on_readNameValueCollection, if_neg (Int.not_le.mpr hshort)]
  dsimp only
  cases hrows : database.console with
  | none => simp [tryMaxConsoleID, hrows]
  | some rows =>
    have hconsole (response : Response) (nRows offset : UInt32) :=
      on_tryConsole poco (s := ⟨response, database⟩) hrows nRows offset
    simp only [tryMaxConsoleID, on_bind, on_table, hrows, on_pure, on_setContentType, on_send,
      Response.fresh, hconsole, asked]
    rcases Console.tryConsole rows _ _ with fault | page
    · rfl
    · cases page with
      | none => rfl
      | some page => cases hpage : poco.page page <;> simp [hpage, sent]

/-- The right response to a request: one is committed, with the status 404 for a URI in neither map,
with the status 200 and the bytes of the file for a URI in `Files` only, and, when the handler of
the URI returns `false`, with another status than 200 or a complete value. -/
structure Right (server : Server) : Prop where
  defined : ∀ fault,
    ((handleRequest server req).on ⟨.fresh, database⟩).1 ≠ .error (.undefined fault)
  committed : ∃ head,
    ((handleRequest server req).on ⟨.fresh, database⟩).2.response.committed = some head ∧
    (server.map req.uri = none → server.files req.uri = none → head.status = 404) ∧
    (server.map req.uri = none → ∀ buffer, server.files req.uri = some buffer →
      head.status = 200 ∧
        ((handleRequest server req).on ⟨.fresh, database⟩).2.response.body = buffer) ∧
    ∀ handler, server.map req.uri = some handler →
      ((handler.run server req).on ⟨.fresh, database⟩).1 = .ok false →
        head.status ≠ 200 ∨ (Json.parse
          ((handleRequest server req).on ⟨.fresh, database⟩).2.response.body).isSome

/-- When a handler answers.  The body of an insertion is not empty, `Login` finds one row for the
parameters, `Console` can subtract its offset, the tables that `MaxConsoleID` and `SelectItemTypes`
read are not empty, and the table that `LogAppearance` logs to is there.  `Favicon` never
answers. -/
def Answers (server : Server) : Handler → Prop
  | .file => server.files req.uri ≠ none
  | .console => req.contentLength < UInt32.size ∧
    ∃ rows, database.console = some rows ∧
      let maxID := Console.maxConsoleID rows
      let offset := (window server.poco req.uri (params server.poco req) maxID).2
      maxID = 0 ∨ -2 ^ 31 ≤ distance maxID offset ∧ distance maxID offset < 2 ^ 31
  | .maxConsoleID => ∀ rows, database.console = some rows → Console.maxConsoleID rows ≠ 0
  | .login => req.contentLength < UInt32.size ∧
    ∃ username password row,
      params server.poco req (Str.ofString "username") = some username ∧
      params server.poco req (Str.ofString "password") = some password ∧
      database.login username password = some [row] ∧ row.userid ≠ 0
  | .newItemType =>
    0 < req.contentLength ∧ req.contentLength < UInt32.size ∧ database.itemTypes ≠ none
  | .selectItemTypes => database.itemTypes ≠ some []
  | .newItem =>
    0 < req.contentLength ∧ req.contentLength < UInt32.size ∧ database.items ≠ none
  | .logAppearance =>
    database.appearance = true ∧ (database.scripts = true → database.console ≠ none)
  | .favicon => False

/-- A server that has no URIs. -/
def bare : Server where
  map _ := none
  files _ := none
  poco := ⟨fun _ _ => none, fun _ => 0, fun _ => none, fun _ => [], fun _ => []⟩

def missing : Request := ⟨Str.ofString "/missing", -1, []⟩

def emptyDatabase : Database := ⟨fun _ _ => some [], some 0, some [], some [], true, true⟩

end Starfall.Http
