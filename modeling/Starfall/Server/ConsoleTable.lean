import Starfall.Common.Documents
import Starfall.ProofKit.Runs
import Starfall.Server.Messages
import Starfall.Server.Responses

/-! The table `CONSOLE` over whole runs: what packets and clients insert into it, and the pages that
`Database::Select::TryConsole` makes of its rows.  The texts of the rows are parsed again for each
page, and one that cannot be parsed takes the page with it. -/

namespace Starfall.Messages

open ProofKit ProofKit.Runs Vars

variable (numbers : NumberFormatter)

/-- What is printed on the console, with the time. -/
inductive Printing
  | head (packet : Packet Head) (time : Time)
  | login (packet : Packet LoginStruct) (time : Time)
  | message (data : Str) (time : Time)

/-- The object that is inserted, if there is one. -/
def Printing.var : Printing → Except ParseError Var
  | .head packet time => pure ((writeHead packet).zip time)
  | .login packet time => pure ((writeLogin packet).zip time)
  | .message data time => do
    let var ← parse data
    pure ((JSONConsoleStruct.new.copy var).2.zip time)

/-- A packet that was read from some bytes. -/
def Printing.Read : Printing → Prop
  | .head packet _ => ∃ buffer c, Buffer.readHead buffer = .ok (packet, c)
  | .login packet _ => ∃ buffer c, Buffer.readLoginStruct buffer = .ok (packet, c)
  | .message _ _ => True

/-- The table with the texts of its rows, in the order of their ids.  A message that the parser
throws at leaves it as it is. -/
def table : System (List Str) Printing where
  init rows := rows = []
  step rows l rows' := l.Read ∧ match l.var with
    | .ok var => rows' = rows ++ [rowText numbers var]
    | .error (.dataFormat _) => rows' = rows
    | .error _ => False

theorem table_step {l : Printing} {var : Var} (hvar : l.var = .ok var) (hread : l.Read)
    (rows : List Str) : (table numbers).step rows l (rows ++ [rowText numbers var]) := by
  refine ⟨hread, ?_⟩
  rw [hvar]

/-- What `SELECT` gives for the rows of the table.  `Poco::Data` and SQLite are known by what they
do with a text that has no zero: it comes back as it was inserted, under the next id. -/
structure Storage where
  message : List Str → Nat → Str
  exact : ∀ rows text more, 0 ∉ text → message (rows ++ text :: more) (rows.length + 1) = text

/-- A storage that cuts its texts at the first zero. -/
def cString : Storage where
  message rows id := (rows.getD (id - 1) []).takeWhile fun a => a ≠ 0
  exact rows text more h := by
    have hrow : (rows ++ text :: more).getD rows.length [] = text := by simp
    rw [Nat.add_sub_cancel, hrow, List.takeWhile_eq_self_iff]
    intro a ha
    exact decide_eq_true fun hzero => h (hzero ▸ ha)

variable (storage : Storage)

/-- The loop of `Database::Select::TryConsole` over the selected rows. -/
def messages (rows : List Str) : List Nat → Except ParseError (List Var)
  | [] => pure []
  | id :: consoles => do
    let var ← parse (storage.message rows id)
    let vars ← messages rows consoles
    pure (var :: vars)

/-- What `Database::Select::TryConsole` writes. -/
def pageText (rows : List Str) (page : Console.Page) : Except ParseError Str := do
  let vars ← messages storage rows page.messages
  let obj := set (set (set [] "messages" (.vector vars)) "offset" (.number page.offset)) "upper"
    (.number page.upper)
  pure (stringifyObject numbers obj 0)

/-- The objects that were inserted. -/
def printed (ls : List Printing) : List Var := ls.filterMap fun l => l.var.toOption

theorem rowText_zip (json : JSONConsoleStruct) (time : Time) :
    rowText numbers (json.zip time) = strip ((json.zip time).toString numbers) := by
  rw [zip_eq, rowText]
  exact nofun

theorem closed_rowText (json : JSONConsoleStruct) (time : Time) :
    Closed (rowText numbers (json.zip time)) := by
  have hclose : strip (Str.ofString "\x7d") = [125] := by decide
  rw [rowText_zip, zip_eq, Var.toString, appendJSONString, inObject, strip_append, hclose]
  exact ⟨_, 125, by decide, rfl⟩

/-- An object that is inserted is the three objects of some message. -/
theorem Printing.var_eq {l : Printing} {var : Var} (h : l.var = .ok var) :
    ∃ (json : JSONConsoleStruct) (time : Time), var = json.zip time := by
  cases l with
  | head packet time =>
    cases h
    exact ⟨_, _, rfl⟩
  | login packet time =>
    cases h
    exact ⟨_, _, rfl⟩
  | message data time =>
    rw [Printing.var] at h
    cases hparse : parse data with
    | ok var =>
      rw [hparse] at h
      cases h
      exact ⟨_, _, rfl⟩
    | error e =>
      rw [hparse] at h
      cases h

/-- The rows are the texts of what was inserted, in order. -/
theorem rows_eq {ls : List Printing} {rows : List Str} (run : (table numbers).Run ls rows) :
    rows = (printed ls).map (rowText numbers) := by
  refine run.invariant (I := fun ls rows => rows = (printed ls).map (rowText numbers)) ?_ ?_
  · rintro rows rfl
    rfl
  · rintro ls rows l rows' - ih ⟨-, hrow⟩
    rw [printed, List.filterMap_append, List.map_append, ← printed, ← ih]
    cases hvar : l.var with
    | ok var =>
      rw [hvar] at hrow
      rw [hrow]
      simp [hvar, Except.toOption]
    | error e =>
      rw [hvar] at hrow
      cases e with
      | dataFormat message =>
        rw [hrow]
        simp [hvar, Except.toOption]
      | undefined fault => exact hrow.elim
      | outOfFuel => exact hrow.elim

theorem printed_cons {l : Printing} {ls : List Printing} {var : Var} (hvar : l.var = .ok var) :
    printed (l :: ls) = var :: printed ls := by
  rw [printed, List.filterMap_cons, hvar]
  rfl

theorem mem_printed {ls : List Printing} {var : Var} :
    var ∈ printed ls ↔ ∃ l ∈ ls, l.var = .ok var := by
  rw [printed, List.mem_filterMap]
  refine exists_congr fun l => and_congr_right fun _ => ?_
  cases l.var <;> simp [Except.toOption]

/-- No string or key of what is inserted has a zero. -/
def Printing.Clean (l : Printing) : Prop := ∀ var, l.var = .ok var → Zeroless var

theorem zero_rowText {json : JSONConsoleStruct} {time : Time} (h : Zeroless (json.zip time)) :
    0 ∉ rowText numbers (json.zip time) := by
  rw [rowText_zip]
  exact fun hzero => (h.texts numbers).1 (mem_of_mem_strip hzero)

theorem zero_rows {ls : List Printing} {rows : List Str} (run : (table numbers).Run ls rows)
    (hclean : ∀ l ∈ ls, l.Clean) : ∀ row ∈ rows, 0 ∉ row := by
  rw [rows_eq numbers run]
  intro row hrow
  obtain ⟨var, hvar, rfl⟩ := List.mem_map.mp hrow
  obtain ⟨l, hl, hvar⟩ := mem_printed.mp hvar
  have hzeroless := hclean l hl var hvar
  obtain ⟨json, time, rfl⟩ := Printing.var_eq hvar
  exact zero_rowText numbers hzeroless

/-- The row with an id is the one that was inserted. -/
theorem Storage.message_eq {rows : List Str} (hrows : ∀ row ∈ rows, 0 ∉ row) {id : Nat}
    (hid : 1 ≤ id ∧ id ≤ rows.length) : storage.message rows id = rows.getD (id - 1) [] := by
  have hlt : id - 1 < rows.length := by omega
  have hsplit : rows = rows.take (id - 1) ++ rows[id - 1] :: rows.drop (id - 1 + 1) := by
    rw [← List.drop_eq_getElem_cons hlt, List.take_append_drop]
  have hlength : (rows.take (id - 1)).length + 1 = id := by
    rw [List.length_take]
    omega
  have hexact := storage.exact (rows.take (id - 1)) rows[id - 1] (rows.drop (id - 1 + 1))
    (hrows _ (List.getElem_mem hlt))
  rw [hlength, ← hsplit] at hexact
  rw [hexact, List.getD_eq_getElem rows [] hlt]

/-- In a table without zeros the parser has a value for a row, or it throws. -/
theorem parse_message {ls : List Printing} {rows : List Str} (run : (table numbers).Run ls rows)
    (hclean : ∀ l ∈ ls, l.Clean) {id : Nat} (hid : 1 ≤ id ∧ id ≤ rows.length) :
    (∃ v, parse (storage.message rows id) = .ok v) ∨
      ∃ message, parse (storage.message rows id) = .error (.dataFormat message) := by
  rw [storage.message_eq (zero_rows numbers run hclean) hid]
  have hmem : rows.getD (id - 1) [] ∈ rows := by
    rw [List.getD_eq_getElem rows [] (show id - 1 < rows.length by omega)]
    exact List.getElem_mem _
  have hclosed : Closed (rows.getD (id - 1) []) := by
    rw [rows_eq numbers run] at hmem ⊢
    obtain ⟨var, hvar, heq⟩ := List.mem_map.mp hmem
    obtain ⟨l, -, hl⟩ := mem_printed.mp hvar
    obtain ⟨json, time, rfl⟩ := Printing.var_eq hl
    rw [← heq]
    exact closed_rowText numbers json time
  rcases parse_cases (rows.getD (id - 1) []) with ⟨v, hv, -⟩ | hthrow | ⟨fault, -, hopen⟩
  · exact .inl ⟨v, hv⟩
  · exact .inr hthrow
  · exact absurd hclosed hopen

theorem messages_cases {rows : List Str} {ids : List Nat}
    (h : ∀ id ∈ ids, (∃ v, parse (storage.message rows id) = .ok v) ∨
      ∃ message, parse (storage.message rows id) = .error (.dataFormat message)) :
    (∃ vars, messages storage rows ids = .ok vars) ∨
      ∃ message, messages storage rows ids = .error (.dataFormat message) := by
  induction ids with
  | nil => exact .inl ⟨[], rfl⟩
  | cons id ids ih =>
    rw [List.forall_mem_cons] at h
    rw [messages]
    rcases h.1 with ⟨v, hv⟩ | ⟨message, hmessage⟩
    · rw [hv]
      rcases ih h.2 with ⟨vars, hvars⟩ | ⟨message, hmessage⟩
      · exact .inl ⟨v :: vars, by rw [hvars]; rfl⟩
      · exact .inr ⟨message, by rw [hmessage]; rfl⟩
    · exact .inr ⟨message, by rw [hmessage]; rfl⟩

/-- The ids of a page that `tryConsole` returns are ids of rows. -/
theorem ids_of_tryConsole {rows : Nat} {nRows offset : UInt32} {page : Console.Page}
    (h : Console.tryConsole rows nRows offset = .ok (some page)) :
    page.messages = Console.select rows nRows offset ∧
      ∀ id ∈ page.messages, 1 ≤ id ∧ id ≤ rows := by
  have hselect : page.messages = Console.select rows nRows offset := by
    dsimp only [Console.tryConsole] at h
    split at h
    · cases h
    · split at h
      · cases h
      · split at h
        · cases h
        · split at h
          · cases h
          · cases h
            rfl
  refine ⟨hselect, fun id hid => ?_⟩
  rw [hselect, Console.select] at hid
  exact Console.mem_descending.mp (List.mem_of_mem_drop (List.mem_of_mem_take hid))

/-- Whatever was inserted, without zeros, a page is written or the parser throws. -/
theorem pageText_cases {ls : List Printing} {rows : List Str}
    (run : (table numbers).Run ls rows) (hclean : ∀ l ∈ ls, l.Clean) {page : Console.Page}
    (hids : ∀ id ∈ page.messages, 1 ≤ id ∧ id ≤ rows.length) :
    (∃ text, pageText numbers storage rows page = .ok text) ∨
      ∃ message, pageText numbers storage rows page = .error (.dataFormat message) := by
  rw [pageText]
  rcases messages_cases storage fun id hid => parse_message numbers storage run hclean (hids id hid)
    with ⟨vars, hvars⟩ | ⟨message, hmessage⟩
  · rw [hvars]
    exact .inl ⟨_, rfl⟩
  · rw [hmessage]
    exact .inr ⟨message, rfl⟩

/-- A string that is shown as it is: it has neither a quote nor a zero, and is not framed. -/
def Shown (s : Str) : Prop := 34 ∉ s ∧ 0 ∉ s ∧ ¬Framed s

instance (s : Str) : Decidable (Shown s) := inferInstanceAs (Decidable (_ ∧ _))

/-- What is read back for the pages.  The names of a login are shown as they are.  The strings of a
client's message are spelled as they are, and none right in one of its three objects is framed. -/
def Printing.Plain : Printing → Prop
  | .head _ _ => True
  | .login packet _ => Shown packet.value.username ∧ Shown packet.value.password
  | .message data _ => ∀ var, parse data = .ok var →
    Literal false var ∧ Unframed (JSONConsoleStruct.new.copy var).2

theorem strip_spelling {s : Str} (h : Json.IsSpelling s) : strip s = s := by
  refine strip_eq_self fun a ha => ?_
  have hle := h.le_of_mem ha
  constructor <;> (rintro rfl; exact absurd hle (by decide))

/-- The members of a struct or an object are read back one by one. -/
theorem reread_members (escaped : Bool) {members : List (Str × Var)}
    (hsorted : SortedMaps.Sorted members) (hkeys : ∀ m ∈ members, IsLiteral m.1) :
    SortedMaps.insertAll [] (rereadMembers numbers escaped members) =
      members.map fun m => (m.1, reread numbers escaped m.2) := by
  have hmembers : rereadMembers numbers escaped members =
      members.map fun m => (m.1, reread numbers escaped m.2) := by
    rw [rereadMembers_eq]
    exact List.map_congr_left fun m hm => by rw [strip_spelling (hkeys m hm).1]
  rw [hmembers]
  exact SortedMaps.insertAll_sorted (List.pairwise_map.mpr hsorted)

theorem literal_format (n : UInt32) : IsLiteral (numbers.format n) := by
  have hplain : ∀ a : UInt8, 48 ≤ a ∧ a ≤ 57 → 32 ≤ a ∧ a ≠ 34 ∧ a ≠ 92 :=
    forall_bytes (by decide +kernel)
  have hformat := fun a ha => hplain a ((numbers.digits n).2 a ha)
  exact ⟨Json.isSpelling_plain hformat, fun hslash => (hformat 92 hslash).2.2 rfl⟩

/-- What is read back of such a value is spelled as in JSON. -/
theorem isJson_reread {escaped : Bool} {v : Var} (h : Literal escaped v) :
    IsJson false (reread numbers escaped v) := by
  have hstruct {escaped : Bool} {members : List (Str × Var)}
      (hsorted : SortedMaps.Sorted members) (hkeys : ∀ m ∈ members, IsLiteral m.1)
      (h : ∀ m ∈ members, IsJson false (reread numbers escaped m.2)) :
      IsJson false
        (.struct (SortedMaps.insertAll [] (rereadMembers numbers escaped members))) := by
    rw [reread_members numbers escaped hsorted hkeys]
    exact .struct (List.forall_mem_map.mpr fun m hm => (hkeys m hm).1) (List.forall_mem_map.mpr h)
  induction h with
  | empty =>
    rw [reread]
    exact .raw (by decide)
  | number =>
    rw [reread]
    exact .raw (literal_format numbers _).1
  | escaped hzero _ =>
    rw [reread]
    exact .raw (isSpelling_escape hzero)
  | raw h =>
    rw [reread, strip_spelling h.1]
    exact .raw h.1
  | vector h ih =>
    rw [reread, rereadItems_eq]
    exact .vector (List.forall_mem_map.mpr ih)
  | struct hsorted hkeys h ih =>
    rw [reread]
    exact hstruct hsorted hkeys ih
  | object hsorted hkeys h ih =>
    rw [reread]
    exact hstruct hsorted hkeys ih

/-- What is read back of such a value stands for the value. -/
theorem decoded_reread {escaped : Bool} {v : Var} (h : Literal escaped v) :
    (jsonView numbers false (reread numbers escaped v)).decoded =
      some (jsonOf numbers true v) := by
  have hstruct {escaped : Bool} {members : List (Str × Var)}
      (hsorted : SortedMaps.Sorted members) (hkeys : ∀ m ∈ members, IsLiteral m.1)
      (h : ∀ m ∈ members, (jsonView numbers false (reread numbers escaped m.2)).decoded =
        some (jsonOf numbers true m.2)) :
      (jsonView numbers false
        (.struct (SortedMaps.insertAll [] (rereadMembers numbers escaped members)))).decoded =
          some (.object (jsonOfMembers numbers true members)) := by
    rw [reread_members numbers escaped hsorted hkeys, jsonView, jsonMembers_eq, List.map_map]
    exact decoded_object numbers (f := fun v => jsonView numbers false (reread numbers escaped v))
      hkeys h
  induction h with
  | empty =>
    rw [reread, jsonView, jsonOf]
    rfl
  | number =>
    rw [reread, jsonView, jsonOf, Json.Value.decoded,
      Json.decode_literal (literal_format numbers _).2]
    rfl
  | escaped hzero _ =>
    rw [reread, jsonView, jsonOf, Json.Value.decoded, decode_escape hzero]
    rfl
  | raw h =>
    rw [reread, jsonView, jsonOf, strip_spelling h.1, Json.Value.decoded,
      Json.decode_literal h.2]
    rfl
  | vector h ih =>
    rw [reread, rereadItems_eq, jsonView, jsonItems_eq, List.map_map, jsonOf]
    exact decoded_array numbers ih
  | struct hsorted hkeys h ih =>
    rw [reread, jsonOf]
    exact hstruct hsorted hkeys ih
  | object hsorted hkeys h ih =>
    rw [reread, jsonOf]
    exact hstruct hsorted hkeys ih

/-- Members that are shown as they are. -/
structure LiteralMembers (members : List (Str × Var)) : Prop where
  sorted : SortedMaps.Sorted members
  keys : ∀ m ∈ members, IsLiteral m.1
  values : ∀ m ∈ members, Literal true m.2

namespace LiteralMembers

theorem nil : LiteralMembers [] :=
  ⟨List.Pairwise.nil, List.forall_mem_nil _, List.forall_mem_nil _⟩

theorem set {members : List (Str × Var)} (h : LiteralMembers members) {name : String} {value : Var}
    (hname : IsLiteral (Str.ofString name)) (hvalue : Literal true value) :
    LiteralMembers (Messages.set members name value) := by
  refine ⟨SortedMaps.sorted_assign h.sorted _ _, fun m hm => ?_, fun m hm => ?_⟩
  · rcases SortedMaps.mem_of_mem_assign hm with rfl | hm
    · exact hname
    · exact h.keys m hm
  · rcases SortedMaps.mem_of_mem_assign hm with rfl | hm
    · exact hvalue
    · exact h.values m hm

theorem object {members : List (Str × Var)} (h : LiteralMembers members) {escaped : Bool} :
    Literal escaped (.object members) := .object h.sorted h.keys h.values

end LiteralMembers

/-- A message of three such objects is shown as it is. -/
theorem literal_zip {json : JSONConsoleStruct} (hhead : LiteralMembers json.head)
    (hbody : LiteralMembers json.body) (hfoot : LiteralMembers json.foot) (time : Time) :
    Literal false (json.zip time) := by
  have hzero : 0 ∉ time.text := fun hzero => absurd (time.plain 0 hzero) (by decide)
  have hframed : ¬Framed time.text :=
    not_framed_of_start fun hopen => (time.plain_char 60 hopen).2.2 rfl
  have hhead := hhead.set (by decide : IsLiteral (Str.ofString "datetime")) (.escaped hzero hframed)
  have hmembers := ((LiteralMembers.nil.set (by decide : IsLiteral (Str.ofString "head"))
    hhead.object).set (by decide : IsLiteral (Str.ofString "body")) hbody.object).set
    (by decide : IsLiteral (Str.ofString "foot")) hfoot.object
  exact hmembers.object

theorem literal_name {name : String} (hname : 0 ∉ Str.ofString name ∧ ¬Framed (Str.ofString name)) :
    LiteralMembers (set [] "name" (.string (Str.ofString name))) :=
  LiteralMembers.nil.set (by decide) (.escaped hname.1 hname.2)

theorem literal_getHexMap {map : Console.HexMap} (hname : PlainName map.name ∧ PlainName map.type)
    (hzero : 0 ∉ Str.ofString map.name ∧ 0 ∉ Str.ofString map.type) :
    Literal false (getHexMap map) := by
  have hmembers := ((((LiteralMembers.nil.set (by decide : IsLiteral (Str.ofString "name"))
    (.escaped hzero.1 hname.1.2.1)).set (by decide : IsLiteral (Str.ofString "type"))
    (.escaped hzero.2 hname.2.2.1)).set (by decide : IsLiteral (Str.ofString "beginIdx"))
    (.number (n := map.beginIdx))).set (by decide : IsLiteral (Str.ofString "endIdx"))
    (.number (n := map.endIdx)))
  exact hmembers.object

theorem literal_setFoot {hex : List Char} {maps : List Console.HexMap} (hhex : Dumped hex)
    (hmaps : ∀ map ∈ maps, (PlainName map.name ∧ PlainName map.type) ∧
      0 ∉ Str.ofString map.name ∧ 0 ∉ Str.ofString map.type) :
    LiteralMembers (setFoot hex maps) := by
  have hframed : ¬Framed (dumpText hex) := by
    obtain ⟨size, i, bytes, rfl⟩ := hhex
    exact not_framed_of_start fun hopen =>
      absurd (hexRows_char size i bytes 60 hopen) (by decide)
  refine (LiteralMembers.nil.set (by decide) (.escaped hhex.not_zero hframed)).set (by decide)
    (.vector fun v hv => ?_)
  obtain ⟨map, hmap, rfl⟩ := List.mem_map.mp hv
  exact literal_getHexMap (hmaps map hmap).1 (hmaps map hmap).2

theorem zeroless_headMaps : ∀ map ∈ headMaps, (PlainName map.name ∧ PlainName map.type) ∧
    0 ∉ Str.ofString map.name ∧ 0 ∉ Str.ofString map.type := by
  decide

theorem zeroless_loginMaps (login : LoginStruct) :
    ∀ map ∈ Console.loginMaps login, (PlainName map.name ∧ PlainName map.type) ∧
      0 ∉ Str.ofString map.name ∧ 0 ∉ Str.ofString map.type := by
  simp only [Console.loginMaps, List.forall_mem_cons]
  decide

/-- A row that a page shows. -/
structure Shows (var : Var) : Prop where
  parsed : parse (rowText numbers var) = .ok (reread numbers false var)
  literal : Literal false var

theorem shows_head {packet : Packet Head} (hhex : Dumped packet.hex) (time : Time) :
    Shows numbers ((writeHead packet).zip time) := by
  have hbody : LiteralMembers (writeHead packet).body :=
    (((LiteralMembers.nil.set (by decide) .number).set (by decide) .number).set (by decide)
      .number).set (by decide) .number
  exact ⟨parse_row numbers (sections_writeHead hhex) time,
    literal_zip (literal_name (by decide)) hbody (literal_setFoot hhex zeroless_headMaps) time⟩

theorem literal_login {packet : Packet LoginStruct} (hhex : Dumped packet.hex)
    (husername : 0 ∉ packet.value.username ∧ ¬Framed packet.value.username)
    (hpassword : 0 ∉ packet.value.password ∧ ¬Framed packet.value.password) (time : Time) :
    Literal false ((writeLogin packet).zip time) := by
  have hbody : LiteralMembers (writeLogin packet).body :=
    ((((LiteralMembers.nil.set (by decide) .number).set (by decide) .number).set (by decide)
      .number).set (by decide) (.escaped husername.1 husername.2)).set (by decide)
      (.escaped hpassword.1 hpassword.2)
  exact literal_zip (literal_name (by decide)) hbody
    (literal_setFoot hhex (zeroless_loginMaps packet.value)) time

theorem shows_login {packet : Packet LoginStruct} (hhex : Dumped packet.hex)
    (husername : Shown packet.value.username) (hpassword : Shown packet.value.password)
    (time : Time) : Shows numbers ((writeLogin packet).zip time) := by
  have hsections := sections_writeLogin hhex ⟨husername.1, husername.2.2⟩
    ⟨hpassword.1, hpassword.2.2⟩
  exact ⟨parse_row numbers hsections time, literal_login hhex husername.2 hpassword.2 time⟩

theorem shows_message {var : Var} (hcanonical : Canonical var) (hliteral : Literal false var)
    (hframed : Unframed (JSONConsoleStruct.new.copy var).2) (time : Time) :
    Shows numbers ((JSONConsoleStruct.new.copy var).2.zip time) := by
  have hmember : ∀ m, (JSONConsoleStruct.new.copy var).2.Has m →
      IsLiteral m.1 ∧ Literal true m.2 := by
    intro m hm
    have hunframed := hframed m hm
    obtain ⟨s, k, part, rfl, hk, hm⟩ := JSONConsoleStruct.mem_copy hm
    have hpart : Literal false (.struct part) := by
      cases hliteral with
      | struct _ _ h => exact h _ hk
    cases hpart with
    | struct _ hkeys h => exact ⟨hkeys m hm, (h m hm).inObject hunframed⟩
  obtain ⟨hhead, hbody, hfoot⟩ := JSONConsoleStruct.sorted_copy var
  refine ⟨parse_row numbers (sections_copy hcanonical hframed) time, literal_zip ?_ ?_ ?_ time⟩
  · exact ⟨hhead, fun m hm => (hmember m (.inl hm)).1, fun m hm => (hmember m (.inl hm)).2⟩
  · exact ⟨hbody, fun m hm => (hmember m (.inr (.inl hm))).1,
      fun m hm => (hmember m (.inr (.inl hm))).2⟩
  · exact ⟨hfoot, fun m hm => (hmember m (.inr (.inr hm))).1,
      fun m hm => (hmember m (.inr (.inr hm))).2⟩

/-- A plain message is shown. -/
theorem Printing.Plain.shows {l : Printing} (h : l.Plain) (hread : l.Read) {var : Var}
    (hvar : l.var = .ok var) : Shows numbers var := by
  cases l with
  | head packet time =>
    cases hvar
    obtain ⟨buffer, c, hread⟩ := hread
    exact shows_head numbers (dumped_of_readPacket hread) time
  | login packet time =>
    cases hvar
    obtain ⟨buffer, c, hread⟩ := hread
    exact shows_login numbers (dumped_of_readPacket hread) h.1 h.2 time
  | message data time =>
    rw [Printing.var] at hvar
    cases hparse : parse data with
    | ok v =>
      rw [hparse] at hvar
      cases hvar
      obtain ⟨hliteral, hframed⟩ := h v hparse
      exact shows_message numbers (canonical_of_parse hparse) hliteral hframed time
    | error e =>
      rw [hparse] at hvar
      cases hvar

/-- The object that was inserted with an id. -/
def insertedAt (ls : List Printing) (id : Nat) : Var := (printed ls).getD (id - 1) .empty

/-- The value that a page stands for: the objects that were inserted.  Their numbers are strings,
as the parser knows no others. -/
def shownPage (ls : List Printing) (page : Console.Page) : Json.Value :=
  .object [(Str.ofString "messages",
      .array (page.messages.map fun id => jsonOf numbers true (insertedAt ls id))),
    (Str.ofString "offset", .number (numbers.format page.offset)),
    (Str.ofString "upper", .number (numbers.format page.upper))]

theorem messages_ok {rows : List Str} {view : Nat → Var} {ids : List Nat}
    (h : ∀ id ∈ ids, parse (storage.message rows id) = .ok (view id)) :
    messages storage rows ids = .ok (ids.map view) := by
  induction ids with
  | nil => rfl
  | cons id ids ih =>
    rw [List.forall_mem_cons] at h
    rw [messages, h.1, ih h.2]
    rfl

/-- Every insertion of a run is read or parsed. -/
theorem read_of_run {ls : List Printing} {rows : List Str} (run : (table numbers).Run ls rows) :
    ∀ l ∈ ls, l.Read := by
  refine run.invariant (I := fun ls _ => ∀ l ∈ ls, l.Read) nofun ?_
  rintro ls rows l rows' - ih ⟨hread, -⟩
  exact List.forall_mem_append.mpr ⟨ih, by simpa using hread⟩

theorem clean_of_plain {ls : List Printing} {rows : List Str} (run : (table numbers).Run ls rows)
    (hplain : ∀ l ∈ ls, l.Plain) : ∀ l ∈ ls, l.Clean := fun l hl _ hvar =>
  ((hplain l hl).shows numbers (read_of_run numbers run l hl) hvar).literal.zeroless

theorem shows_at {ls : List Printing} {rows : List Str} (run : (table numbers).Run ls rows)
    (hplain : ∀ l ∈ ls, l.Plain) {id : Nat} (hid : 1 ≤ id ∧ id ≤ rows.length) :
    parse (storage.message rows id) = .ok (reread numbers false (insertedAt ls id)) ∧
      Literal false (insertedAt ls id) := by
  have hrows := rows_eq numbers run
  have hlength : rows.length = (printed ls).length := by rw [hrows, List.length_map]
  have hlt : id - 1 < (printed ls).length := by omega
  obtain ⟨l, hl, hvar⟩ := mem_printed.mp (List.getElem_mem hlt)
  have hshows := (hplain l hl).shows numbers (read_of_run numbers run l hl) hvar
  have htext : storage.message rows id = rowText numbers (printed ls)[id - 1] := by
    rw [storage.message_eq (zero_rows numbers run (clean_of_plain numbers run hplain)) hid, hrows,
      List.getD_eq_getElem _ _ (by rwa [List.length_map]), List.getElem_map]
  rw [htext, insertedAt, List.getD_eq_getElem _ _ hlt]
  exact ⟨hshows.parsed, hshows.literal⟩

/-- After a run of plain messages a page is JSON that stands for what was inserted, in its order. -/
theorem pageText_plain {ls : List Printing} {rows : List Str} (run : (table numbers).Run ls rows)
    (hplain : ∀ l ∈ ls, l.Plain) {page : Console.Page}
    (hids : ∀ id ∈ page.messages, 1 ≤ id ∧ id ≤ rows.length) :
    ∃ text, pageText numbers storage rows page = .ok text ∧
      (Json.parse text).bind Json.Value.decoded = some (shownPage numbers ls page) := by
  have hshows := fun id hid => shows_at numbers storage run hplain (hids id hid)
  have hmessages := messages_ok storage fun id hid => (hshows id hid).1
  refine ⟨_, by rw [pageText, hmessages]; rfl, ?_⟩
  have hjson : ∀ v ∈ page.messages.map (fun id => reread numbers false (insertedAt ls id)),
      IsJson false v :=
    List.forall_mem_map.mpr fun id hid => isJson_reread numbers (hshows id hid).2
  have hdecoded : Json.decodedElements (page.messages.map fun id =>
      jsonView numbers false (reread numbers false (insertedAt ls id))) =
        some (page.messages.map fun id => jsonOf numbers true (insertedAt ls id)) :=
    Json.decodedElements_map fun id hid => decoded_reread numbers (hshows id hid).2
  have hobj (vars : List Var) : set (set (set [] "messages" (.vector vars)) "offset"
      (.number page.offset)) "upper" (.number page.upper) =
        [(Str.ofString "messages", .vector vars), (Str.ofString "offset", .number page.offset),
          (Str.ofString "upper", .number page.upper)] := rfl
  have hkeys : ∀ name ∈ ["messages", "offset", "upper"],
      Json.decode (Str.ofString name) = some (Str.ofString name) := by decide
  simp only [List.forall_mem_cons] at hkeys
  rw [hobj, parse_stringifyObject numbers]
  · simp only [jsonMembers, jsonView, jsonItems_eq, List.map_map, Function.comp_def,
      Option.bind_some, Json.Value.decoded, Json.decodedMembers, hkeys, hdecoded]
    rfl
  · simp only [List.forall_mem_cons]
    decide
  · simp only [List.forall_mem_cons]
    exact ⟨.vector hjson, .number, .number, List.forall_mem_nil _⟩

/-- What the web server writes for pages of a table. -/
def withTable (poco : Http.Poco) (rows : List Str) : Http.Poco :=
  { poco with page := fun page => (pageText numbers storage rows page).toOption }

variable (database : Http.Database) (poco : Http.Poco) (req : Http.Request)

/-- What a request for the console gets, in terms of the page that it asks for. -/
theorem on_console_table {rows : List Str} (hrows : database.console = some rows.length)
    (hshort : req.contentLength < UInt32.size) {page : Console.Page}
    (hasked : Http.asked poco req rows.length = .ok (some page)) :
    (Http.console (withTable numbers storage poco rows) req).on ⟨.fresh, database⟩ =
      match pageText numbers storage rows page with
      | .ok text => (.ok true, Http.sent database "application/json" text)
      | .error _ => (.error .poco, Http.sent database "application/json" []) := by
  have hpage : Http.asked (withTable numbers storage poco rows) req rows.length =
      .ok (some page) := hasked
  have htext : (withTable numbers storage poco rows).page page =
      (pageText numbers storage rows page).toOption := rfl
  rw [Http.on_console _ _ _ hshort, hrows]
  dsimp only
  rw [hpage]
  dsimp only
  rw [htext]
  cases pageText numbers storage rows page <;> rfl

theorem ids_of_asked {rows : Nat} {page : Console.Page}
    (hasked : Http.asked poco req rows = .ok (some page)) :
    ∀ id ∈ page.messages, 1 ≤ id ∧ id ≤ rows :=
  (ids_of_tryConsole hasked).2

/-- After a run of plain messages every request that asks for a page gets it, as JSON that stands
for what was inserted. -/
theorem console_plain {ls : List Printing} {rows : List Str} (run : (table numbers).Run ls rows)
    (hplain : ∀ l ∈ ls, l.Plain) (hrows : database.console = some rows.length)
    (hshort : req.contentLength < UInt32.size) {page : Console.Page}
    (hasked : Http.asked poco req rows.length = .ok (some page)) :
    ∃ text, (Http.console (withTable numbers storage poco rows) req).on ⟨.fresh, database⟩ =
        (.ok true, Http.sent database "application/json" text) ∧
      (Json.parse text).bind Json.Value.decoded = some (shownPage numbers ls page) := by
  obtain ⟨text, htext, hjson⟩ :=
    pageText_plain numbers storage run hplain (ids_of_asked poco req hasked)
  refine ⟨text, ?_, hjson⟩
  rw [on_console_table numbers storage database poco req hrows hshort hasked, htext]

/-! A message of a client, and the request for the page with it. -/

def greeting : Str :=
  Str.ofString "\x7b\"head\":\x7b\"name\":\"Hi\"\x7d,\"body\":\x7b\x7d,\"foot\":\x7b\x7d\x7d"

def pageRequest : Http.Request := ⟨Str.ofString "/console", 0, []⟩

def oneRow : Http.Database := { Http.emptyDatabase with console := some 1 }

def greetingHead : List Entry :=
  [⟨Str.ofString "name", [], [], .string (Str.ofString "Hi"), .string (Str.ofString "Hi"),
    quote (Str.ofString "Hi")⟩]

def greetingEntries : List Entry :=
  [⟨Str.ofString "head", [], [], objectJson greetingHead, objectVar greetingHead,
      objectText [] [] [] greetingHead⟩,
    ⟨Str.ofString "body", [], [], objectJson [], objectVar [], objectText [] [] [] []⟩,
    ⟨Str.ofString "foot", [], [], objectJson [], objectVar [], objectText [] [] [] []⟩]

theorem greeting_document :
    Document (objectJson greetingEntries) (objectVar greetingEntries) greeting := by
  have hblank : Json.Blank [] := by decide
  have hempty : Document (objectJson []) (objectVar []) (objectText [] [] [] []) :=
    document_object hblank hblank hblank nofun
  have hhead : ∀ e ∈ greetingHead, e.Stands := List.forall_mem_singleton.mpr
    ⟨⟨⟨by decide, by decide⟩, hblank, hblank⟩, .string (by decide) (by decide)⟩
  have htext : objectText [] [] [] greetingEntries = greeting := by decide
  rw [← htext]
  refine document_object hblank hblank hblank ?_
  simp only [greetingEntries, List.forall_mem_cons]
  exact ⟨⟨⟨⟨by decide, by decide⟩, hblank, hblank⟩, document_object hblank hblank hblank hhead⟩,
    ⟨⟨⟨by decide, by decide⟩, hblank, hblank⟩, hempty⟩,
    ⟨⟨⟨by decide, by decide⟩, hblank, hblank⟩, hempty⟩, List.forall_mem_nil _⟩

theorem copy_greeting : (JSONConsoleStruct.new.copy (objectVar greetingEntries)).2 =
    ⟨[(Str.ofString "name", .string (Str.ofString "Hi"))], [], []⟩ := rfl

theorem plain_greeting : (Printing.message greeting midnight).Plain := by
  intro var hvar
  rw [greeting_document.parse_eq] at hvar
  cases hvar
  refine ⟨greeting_document.literal, ?_⟩
  rw [copy_greeting]
  intro m hm s hs
  rcases hm with hm | hm | hm
  · obtain rfl := List.mem_singleton.mp hm
    cases hs
    decide
  · cases hm
  · cases hm

theorem run_greeting : ∃ row, (table decimal).Run [.message greeting midnight] [row] := by
  have hstart : (table decimal).Run [] [] := .nil rfl
  have hread : (Printing.message greeting midnight).Read := trivial
  have hvar : (Printing.message greeting midnight).var =
      .ok ((JSONConsoleStruct.new.copy (objectVar greetingEntries)).2.zip midnight) := by
    rw [Printing.var, greeting_document.parse_eq]
    rfl
  have hrun := hstart.snoc (table_step decimal hvar hread [])
  rw [List.nil_append, List.nil_append] at hrun
  exact ⟨_, hrun⟩

theorem greeting_shown : ∃ row text,
    (Http.console (withTable decimal cString Http.bare.poco [row]) pageRequest).on
        ⟨.fresh, oneRow⟩ = (.ok true, Http.sent oneRow "application/json" text) ∧
      (Json.parse text).bind Json.Value.decoded =
        some (shownPage decimal [.message greeting midnight] ⟨[1], 1, 1⟩) := by
  obtain ⟨row, run⟩ := run_greeting
  have hplain : ∀ l ∈ [Printing.message greeting midnight], l.Plain :=
    List.forall_mem_singleton.mpr plain_greeting
  obtain ⟨text, hsent, hjson⟩ := console_plain decimal cString oneRow Http.bare.poco pageRequest run
    hplain rfl (by decide) (rfl : Http.asked Http.bare.poco pageRequest 1 = .ok (some ⟨[1], 1, 1⟩))
  exact ⟨row, text, hsent, hjson⟩

end Starfall.Messages
