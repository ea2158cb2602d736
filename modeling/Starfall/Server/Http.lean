import Starfall.Common.Database
import Starfall.ProofKit.Outcomes
import Starfall.Server.Console

/-! `LoginHTTPRequest` and `LoginHTTPRequestHandler` of `LoginServer.cpp`: the handlers of the web
requests, and the functions of `Database.cpp` that they call.  `send` commits the status and the
headers that were set so far, and what is set after it has no effect. -/

namespace Starfall.Http

open Console ProofKit.Outcomes

/-- What a handler throws. -/
inductive Exception
  /-- A `std::out_of_range`. -/
  | outOfRange
  /-- A `Poco::Exception`, which no function here catches. -/
  | poco
  | undefined (fault : Fault)

structure Request where
  uri : Str
  contentLength : Int
  stream : List UInt8

/-- The head of a response that `send` committed. -/
structure Committed where
  status : Nat
  contentType : Option Str

structure Response where
  status : Nat
  contentType : Option Str
  committed : Option Committed
  body : Str

/-- A response that nothing was done with. -/
def Response.fresh : Response := ⟨200, none, none, []⟩

/-- The tables, each as long as queries of it do not throw, the rows that the query of a login
selects for a username and a password, whether the file of `Config::Appearance` can be loaded, and
whether its scripts can, which log what is in the file. -/
structure Database where
  login : Str → Str → Option (List LoginRow)
  console : Option Nat
  itemTypes : Option (List Str)
  items : Option (List Str)
  appearance : Bool
  scripts : Bool

structure State where
  response : Response
  database : Database

/-- What Poco does with texts: the value of a name among the parameters that are split from a body,
what `tryParseUnsigned` leaves in a number that was 0, and the texts of the objects that are sent.
There is none for a page with a message that cannot be parsed. -/
structure Poco where
  parameters : Str → Str → Option Str
  parseUnsigned : Str → UInt32
  page : Page → Option Str
  max : UInt32 → Str
  login : LoginStruct → Str

abbrev Web := ExceptT Exception (StateM State)

def setStatus (status : Nat) : Web Unit :=
  modify fun s => { s with response := { s.response with status } }

def setContentType (contentType : String) : Web Unit :=
  modify fun s =>
    { s with response := { s.response with contentType := some (Str.ofString contentType) } }

/-- `HTTPServerResponse::send`, which asserts that nothing was sent yet. -/
def send : Web Unit := do
  let s ← get
  match s.response.committed with
  | some _ => throw .poco
  | none =>
    set { s with response :=
      { s.response with committed := some ⟨s.response.status, s.response.contentType⟩ } }

/-- The output stream that `send` returns. -/
def write (text : Str) : Web Unit :=
  modify fun s => { s with response := { s.response with body := s.response.body ++ text } }

/-- `std::map::at`. -/
def at_ {α : Type} (map : Str → Option α) (key : Str) : Web α :=
  match map key with
  | some a => pure a
  | none => throw .outOfRange

/-- A body of the length that the request claims, filled up with zeros. -/
def Request.body (req : Request) : Str :=
  let len := req.contentLength.toNat
  req.stream.take len ++ List.replicate (len - req.stream.length) 0

/-- The body in a string.  Its length is cut to an `unsigned int` for the string, but not for the
read into it. -/
def Request.read (req : Request) : Web Str :=
  if UInt32.size ≤ req.contentLength then
    throw (.undefined (.outOfRange (req.contentLength.toNat % UInt32.size)))
  else
    pure req.body

/-- A table whose queries throw if there is none. -/
def table {α : Type} (select : Database → Option α) : Web α := do
  match select (← get).database with
  | some rows => pure rows
  | none => throw .poco

/-- What `Database::Select::TryLogin` makes of the rows that its query selects. -/
def loginOf (logins : List LoginRow) (loginStruct : LoginStruct) : Option LoginStruct :=
  match logins with
  | [] => none
  | [row] =>
    if row.userid ≠ loginStruct.userid then
      some { loginStruct with userid := row.userid, usertype := row.usertype }
    else
      none
  | _ :: _ :: _ => none

/-- For credentials that the query selects the rows of, this is the login of the sockets. -/
theorem tryLogin_eq_loginOf (login : List LoginRow) (loginStruct : LoginStruct) :
    Starfall.tryLogin login loginStruct =
      loginOf (login.filter fun row => row.username = loginStruct.username ∧
        row.password = loginStruct.password) loginStruct :=
  rfl

/-- `Database::Select::TryLogin`. -/
def tryLogin (loginStruct : LoginStruct) : Web (Option LoginStruct) := do
  let logins ← table fun database => database.login loginStruct.username loginStruct.password
  pure (loginOf logins loginStruct)

/-- `Database::Select::TryMaxConsoleID`. -/
def tryMaxConsoleID : Web (Bool × UInt32) := do
  let rows ← table Database.console
  pure (Console.maxConsoleID rows ≠ 0, Console.maxConsoleID rows)

/-- `Database::Select::TryConsole`. -/
def tryConsole (poco : Poco) (nRows offset : UInt32) : Web Bool := do
  let rows ← table Database.console
  match Console.tryConsole rows nRows offset with
  | .error fault => throw (.undefined fault)
  | .ok none => pure false
  | .ok (some page) =>
    match poco.page page with
    | some text =>
      write text
      pure true
    | none => throw .poco

/-- The text of `Database::Select::TryItemTypes`. -/
def itemTypesText (itemTypes : List Str) : Str :=
  Str.ofString "\x7b\"itemTypes\":[" ++ List.intercalate (Str.ofString ",") itemTypes ++
    Str.ofString "]\x7d"

/-- `Database::Select::TryItemTypes`. -/
def tryItemTypes : Web Bool := do
  let itemTypes ← table Database.itemTypes
  if itemTypes.length > 0 then
    write (itemTypesText itemTypes)
    pure true
  else
    pure false

/-- `Database::Insert::TryItemType`. -/
def tryItemType (jsonString : Str) : Web Bool := do
  let itemTypes ← table Database.itemTypes
  modify fun s =>
    { s with database := { s.database with itemTypes := some (itemTypes ++ [jsonString]) } }
  pure true

/-- `Database::Insert::TryNewItem`. -/
def tryNewItem (jsonString : Str) : Web Bool := do
  let items ← table Database.items
  modify fun s => { s with database := { s.database with items := some (items ++ [jsonString]) } }
  pure true

/-- `LoginHTTPRequest::InsertOperation`. -/
def insertOperation (insertFunc : Str → Web Bool) (req : Request) : Web Bool := do
  if req.contentLength > 0 then
    let jsonString ← req.read
    if ← insertFunc jsonString then
      setStatus 200
      setContentType "application/json"
      send
      write (Str.ofString "\x7b\x7d\n")
      return true
  return false

/-- The type that `LoginHTTPRequest::File` gives to a URI by its end. -/
def fileType (uri : Str) : String :=
  if (Str.ofString "js").isSuffixOf uri then "text/javascript"
  else if (Str.ofString "css").isSuffixOf uri then "text/css"
  else if (Str.ofString "gif").isSuffixOf uri then "image/gif"
  else if (Str.ofString "png").isSuffixOf uri then "image/png"
  else "text/html"

/-- `LoginHTTPRequest::File`. -/
def file (files : Str → Option (List UInt8)) (req : Request) : Web Bool := do
  setContentType (fileType req.uri)
  try
    send
    let buffer ← at_ files req.uri
    write buffer
    setStatus 200
    pure true
  catch
    | .outOfRange => pure false
    | e => throw e

/-- `LoginHTTPRequest::ReadNameValueCollection`. -/
def readNameValueCollection (poco : Poco) (req : Request) : Web (Str → Option Str) := do
  if req.contentLength > 0 then
    let str ← req.read
    return poco.parameters str
  else
    return fun _ => none

/-- An optional parameter that holds a number. -/
def unsigned (poco : Poco) (params : Str → Option Str) (name : String) : UInt32 :=
  match params (Str.ofString name) with
  | some text => poco.parseUnsigned text
  | none => 0

/-- The number of rows and the offset that `LoginHTTPRequest::Console` asks for. -/
def window (poco : Poco) (uri : Str) (params : Str → Option Str) (maxID : UInt32) :
    UInt32 × UInt32 :=
  let offset := unsigned poco params "offset"
  let upperID := unsigned poco params "upper"
  if upperID ≠ 0 ∧ maxID ≠ 0 then
    if (Str.ofString "new").isSuffixOf uri then (maxID - upperID, 0)
    else (10, offset + (maxID - upperID))
  else (10, offset)

/-- `LoginHTTPRequest::Console`. -/
def console (poco : Poco) (req : Request) : Web Bool := do
  let params ← readNameValueCollection poco req
  let (_, maxID) ← tryMaxConsoleID
  let (nRows, offset) := window poco req.uri params maxID
  setContentType "application/json"
  send
  if ← tryConsole poco nRows offset then
    setStatus 200
    return true
  else
    setStatus 200
    write (Str.ofString "\x7b\x7d")
    return false

/-- `LoginHTTPRequest::MaxConsoleID`. -/
def maxConsoleID (poco : Poco) : Web Bool := do
  setContentType "application/json"
  send
  let (ok, maxID) ← tryMaxConsoleID
  if ok then
    write (poco.max maxID)
    setStatus 200
    return true
  return false

/-- `LoginHTTPRequest::Login`. -/
def login (poco : Poco) (req : Request) : Web Bool := do
  let params ← readNameValueCollection poco req
  match params (Str.ofString "username"), params (Str.ofString "password") with
  | some username, some password =>
    match ← tryLogin { state := 0, userid := 0, usertype := 0, username, password } with
    | some loginStruct =>
      setContentType "application/json"
      send
      write (poco.login loginStruct)
      setStatus 200
      return true
    | none => return false
  | _, _ => return false

/-- `LoginHTTPRequest::NewItemType`. -/
def newItemType (req : Request) : Web Bool := insertOperation tryItemType req

/-- `LoginHTTPRequest::SelectItemTypes`. -/
def selectItemTypes : Web Bool := do
  setContentType "application/json"
  send
  if ← tryItemTypes then
    setStatus 200
    return true
  return false

/-- `LoginHTTPRequest::NewItem`, which does what `InsertOperation` does. -/
def newItem (req : Request) : Web Bool := insertOperation tryNewItem req

/-- `Config::Appearance`.  The script calls `System.Log`, whose message `Insert::TryConsole` puts
into the table of the console, and the file is looked for by the script and behind it. -/
def configAppearance : Web Unit := do
  let s ← get
  if s.database.appearance then
    if s.database.scripts then
      let rows ← table Database.console
      modify fun s => { s with database := { s.database with console := some (rows + 1) } }
  else
    throw .poco

/-- `LoginHTTPRequest::LogAppearance`. -/
def logAppearance : Web Bool := do
  configAppearance
  setStatus 200
  setContentType "application/json"
  send
  write (Str.ofString "\x7b\x7d\n")
  return true

/-- `LoginHTTPRequest::Favicon`. -/
def favicon : Web Bool := pure true

/-- The functions that `LoginHTTPRequest::Map` may hold. -/
inductive Handler
  | file
  | console
  | maxConsoleID
  | login
  | newItemType
  | selectItemTypes
  | newItem
  | logAppearance
  | favicon
  deriving DecidableEq

structure Server where
  map : Str → Option Handler
  files : Str → Option (List UInt8)
  poco : Poco

def Handler.run (server : Server) (req : Request) : Handler → Web Bool
  | .file => Http.file server.files req
  | .console => Http.console server.poco req
  | .maxConsoleID => Http.maxConsoleID server.poco
  | .login => Http.login server.poco req
  | .newItemType => Http.newItemType req
  | .selectItemTypes => Http.selectItemTypes
  | .newItem => Http.newItem req
  | .logAppearance => Http.logAppearance
  | .favicon => Http.favicon

/-- `LoginHTTPRequestHandler::handleRequest`. -/
def handleRequest (server : Server) (req : Request) : Web Unit := do
  try
    let handler ← at_ server.map req.uri
    let _ ← handler.run server req
    pure ()
  catch
    | .outOfRange =>
      unless ← file server.files req do
        setStatus 404
    | e => throw e

/-- What a handler returns or throws in a state, and the state after it. -/
def Web.on {α : Type} (x : Web α) (s : State) : Except Exception α × State := x.run.run s

variable {α β : Type} (s : State)

@[simp] theorem on_pure (a : α) : Web.on (pure a) s = (.ok a, s) := rfl

@[simp] theorem on_throw (e : Exception) : Web.on (throw e : Web α) s = (.error e, s) := rfl

@[simp] theorem on_bind (x : Web α) (f : α → Web β) :
    Web.on (x >>= f) s =
      match x.on s with
      | (.ok a, s) => (f a).on s
      | (.error e, s) => (.error e, s) := by
  split
  · rename_i hx
    exact outcome_bind_ok hx f
  · rename_i hx
    exact outcome_bind_error hx f

@[simp] theorem on_map (f : α → β) (x : Web α) :
    Web.on (f <$> x) s =
      match x.on s with
      | (.ok a, s) => (.ok (f a), s)
      | (.error e, s) => (.error e, s) := by
  rw [map_eq_pure_bind, on_bind]
  rfl

@[simp] theorem on_ite (p : Prop) [Decidable p] (x y : Web α) :
    Web.on (if p then x else y) s = if p then x.on s else y.on s := by
  split <;> rfl

@[simp] theorem on_modify (f : State → State) :
    Web.on (modify f : Web PUnit) s = (.ok (), f s) := rfl

@[simp] theorem on_setStatus (status : Nat) :
    (setStatus status).on s = (.ok (), { s with response := { s.response with status } }) := rfl

@[simp] theorem on_setContentType (contentType : String) :
    (setContentType contentType).on s = (.ok (), { s with response :=
      { s.response with contentType := some (Str.ofString contentType) } }) := rfl

@[simp] theorem on_write (text : Str) :
    (write text).on s =
      (.ok (), { s with response := { s.response with body := s.response.body ++ text } }) := rfl

theorem on_send (h : s.response.committed = none) :
    send.on s = (.ok (), { s with response :=
      { s.response with committed := some ⟨s.response.status, s.response.contentType⟩ } }) := by
  have hget : Web.on (get : Web State) s = (.ok s, s) := rfl
  rw [send, on_bind, hget]
  dsimp only
  rw [h]
  rfl

@[simp] theorem on_table (select : Database → Option α) :
    (table select).on s =
      match select s.database with
      | some rows => (.ok rows, s)
      | none => (.error .poco, s) := by
  have hget : Web.on (get : Web State) s = (.ok s, s) := rfl
  rw [table, on_bind, hget]
  dsimp only
  cases select s.database <;> rfl

end Starfall.Http
