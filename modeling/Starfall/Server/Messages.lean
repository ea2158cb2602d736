import Starfall.Common.Documents
import Starfall.Common.Strings
import Starfall.Server.Receive
import Starfall.Web.ByteMap

/-! `ConsoleStruct.cpp` and `Console.h`: the messages that packets and clients leave in the table
`CONSOLE`, and what `Var::parse` makes of their texts when a page is asked for. -/

namespace Starfall.Messages

open ProofKit Vars

/-- What `Console::Time` makes of the date and the time. -/
structure Time where
  text : Str
  plain : ∀ a ∈ text, 48 ≤ a ∧ a ≤ 57 ∨ a ∈ Str.ofString "-: "

/-- The three objects, each by its members. -/
structure JSONConsoleStruct where
  head : List (Str × Var)
  body : List (Str × Var)
  foot : List (Str × Var)

def JSONConsoleStruct.new : JSONConsoleStruct := ⟨[], [], []⟩

/-- `Object::set` under a name of the source. -/
def set (members : List (Str × Var)) (name : String) (value : Var) : List (Str × Var) :=
  SortedMaps.assign members (Str.ofString name) value

namespace JSONConsoleStruct

/-- `extract`, with nothing for `false`. -/
def extract (convertedStruct : List (Str × Var)) (name : String) (into : List (Str × Var)) :
    Option (List (Str × Var)) :=
  match SortedMaps.find convertedStruct (Str.ofString name) with
  | some (.struct nameStruct) =>
    some (nameStruct.foldl (fun into m => SortedMaps.assign into m.1 m.2) into)
  | _ => none

def copy (json : JSONConsoleStruct) : Var → Bool × JSONConsoleStruct
  | .struct s =>
    match extract s "head" json.head with
    | none => (false, json)
    | some head =>
      match extract s "body" json.body with
      | none => (false, { json with head })
      | some body =>
        match extract s "foot" json.foot with
        | none => (false, { json with head, body })
        | some foot => (true, { json with head, body, foot })
  | _ => (true, json)

/-- A member of one of the objects. -/
def Has (json : JSONConsoleStruct) (m : Str × Var) : Prop :=
  m ∈ json.head ∨ m ∈ json.body ∨ m ∈ json.foot

/-- The three objects in one, after the time was put into the first. -/
def zip (json : JSONConsoleStruct) (time : Time) : Var :=
  let head := set json.head "datetime" (.string time.text)
  .object (set (set (set [] "head" (.object head)) "body" (.object json.body)) "foot"
    (.object json.foot))

end JSONConsoleStruct

/-- `Console::GetHexMap`. -/
def getHexMap (map : Console.HexMap) : Var :=
  .object (set (set (set (set [] "name" (.string (Str.ofString map.name))) "type"
    (.string (Str.ofString map.type))) "beginIdx" (.number map.beginIdx)) "endIdx"
    (.number map.endIdx))

/-- The maps of `Console::Write<Packet<Head>>`. -/
def headMaps : List Console.HexMap :=
  [⟨"begin", "UInt32", 0, 3⟩, ⟨"opcode", "UInt32", 4, 7⟩, ⟨"bodysize", "UInt32", 8, 11⟩,
    ⟨"end", "UInt32", 12, 15⟩]

/-- The foot of a packet's message: its dump and the places of its fields. -/
def setFoot (hex : List Char) (maps : List Console.HexMap) : List (Str × Var) :=
  set (set [] "hex" (.string (hex.map fun c => c.val.toUInt8))) "maps"
    (.vector (maps.map getHexMap))

/-- `Console::Write<Packet<Head>>` up to its insertion. -/
def writeHead (packet : Packet Head) : JSONConsoleStruct where
  head := set [] "name" (.string (Str.ofString "Head"))
  body := set (set (set (set [] "begin" (.number packet.value.begin.toUInt32)) "opcode"
    (.number packet.value.opcode.toUInt32)) "bodysize"
    (.number packet.value.bodysize.toUInt32)) "end" (.number packet.value.end_.toUInt32)
  foot := setFoot packet.hex headMaps

/-- `Console::Write<Packet<LoginStruct>>` up to its insertion. -/
def writeLogin (packet : Packet LoginStruct) : JSONConsoleStruct where
  head := set [] "name" (.string (Str.ofString "LoginStruct"))
  body := set (set (set (set (set [] "state" (.number packet.value.state)) "userid"
    (.number packet.value.userid)) "usertype" (.number packet.value.usertype)) "username"
    (.string packet.value.username)) "password" (.string packet.value.password)
  foot := setFoot packet.hex (Console.loginMaps packet.value)

variable (numbers : NumberFormatter)

/-- What `Database::Insert::TryConsole` puts into a row. -/
def rowText : Var → Str
  | .string s => s
  | var => strip (var.toString numbers)

/-- The loops of `TryConsole` end, and they strip the text. -/
theorem strip_eq_messageString (text : Str) {fuel : Nat} (hfuel : text.length < fuel) :
    Strings.messageString fuel text = some (strip text) :=
  Strings.messageString_eq text hfuel

/-- A round of `Receive::ConsoleData` after its string: the text of the row, if the parser does not
throw. -/
def consoleRow (data : Str) (time : Time) : Except ParseError Str := do
  let var ← parse data
  let (_, json) := JSONConsoleStruct.new.copy var
  pure (rowText numbers (json.zip time))

/-- The members of an object that is read back as a part of a message. -/
def Section (members : List (Str × Var)) : Prop :=
  ∀ m ∈ members, 34 ∉ m.1 ∧ Storable true m.2

theorem Section.nil : Section [] := nofun

theorem Section.set {members : List (Str × Var)} (h : Section members) {name : String}
    {value : Var} (hname : 34 ∉ Str.ofString name) (hvalue : Storable true value) :
    Section (Messages.set members name value) := by
  intro m hm
  rcases SortedMaps.mem_of_mem_assign hm with rfl | hm
  · exact ⟨hname, hvalue⟩
  · exact h m hm

theorem Section.storable {members : List (Str × Var)} (h : Section members) :
    Storable true (.object members) :=
  .object (fun m hm => (h m hm).1) (fun m hm => (h m hm).2) nofun

theorem zip_eq (json : JSONConsoleStruct) (time : Time) :
    json.zip time = .object [(Str.ofString "body", .object json.body),
      (Str.ofString "foot", .object json.foot),
      (Str.ofString "head", .object (set json.head "datetime" (.string time.text)))] := rfl

/-- Every character of the time is written as it is. -/
theorem Time.plain_char (time : Time) :
    ∀ a ∈ time.text, escapeChar a = [a] ∧ a ≠ 34 ∧ a ≠ 60 := by
  intro a ha
  have hplain : ∀ a : UInt8, 48 ≤ a ∧ a ≤ 57 ∨ a ∈ Str.ofString "-: " →
      escapeChar a = [a] ∧ a ≠ 34 ∧ a ≠ 60 :=
    forall_bytes (by decide +kernel)
  exact hplain a (time.plain a ha)

theorem not_framed_of_start {s : Str} (h : 60 ∉ s) : ¬Framed s := by
  rintro ⟨hstart, -⟩
  refine h (List.mem_of_mem_take (i := 2) ?_)
  rw [hstart]
  decide

theorem Time.storable (time : Time) : Storable true (.string time.text) :=
  .string (fun hquote => (time.plain_char 34 hquote).2.1 rfl) fun _ =>
    not_framed_of_start fun hopen => (time.plain_char 60 hopen).2.2 rfl

/-- Three objects that are read back. -/
structure Sections (json : JSONConsoleStruct) : Prop where
  head : Section json.head
  body : Section json.body
  foot : Section json.foot

theorem zip_storable {json : JSONConsoleStruct} (h : Sections json) (time : Time) :
    Storable false (json.zip time) := by
  have hhead := (h.head.set (by decide : 34 ∉ Str.ofString "datetime") time.storable).storable
  rw [zip_eq]
  refine .object ?_ ?_ ?_
  · simp only [List.forall_mem_cons]
    decide
  · simp only [List.forall_mem_cons]
    exact ⟨h.body.storable, h.foot.storable, hhead, nofun⟩
  · rintro - m ⟨⟩
    rfl

/-- A message of three such objects is read back. -/
theorem parse_row {json : JSONConsoleStruct} (h : Sections json) (time : Time) :
    parse (rowText numbers (json.zip time)) = .ok (reread numbers false (json.zip time)) :=
  (zip_storable h time).parse numbers rfl

def dumpText (hex : List Char) : Str := hex.map fun c => c.val.toUInt8

/-- The characters of a dump: digits, spaces and line breaks. -/
theorem hexRows_char (size i : Nat) (bytes : List UInt8) :
    ∀ a ∈ dumpText (Buffer.hexRows size i bytes), a = 10 ∨ a = 32 ∨ 48 ≤ a ∧ a ≤ 57 ∨
      65 ≤ a ∧ a ≤ 70 := by
  have hall : ∀ byte : UInt8, (dumpText (Buffer.hexByte byte)).all fun a =>
      a = 10 ∨ a = 32 ∨ 48 ≤ a ∧ a ≤ 57 ∨ 65 ≤ a ∧ a ≤ 70 :=
    forall_bytes (by decide +kernel)
  have hbyte (byte : UInt8) := List.all_iff_forall_prop.mp (hall byte)
  induction bytes generalizing i with
  | nil => exact nofun
  | cons byte bytes ih =>
    intro a ha
    rw [Buffer.hexRows, dumpText, List.map_append, List.map_append, List.mem_append,
      List.mem_append] at ha
    rcases ha with (ha | ha) | ha
    · exact hbyte byte a ha
    · revert ha
      split
      · intro ha
        exact .inl (List.mem_singleton.mp ha)
      · intro ha
        exact .inr (.inl (List.mem_singleton.mp ha))
    · exact ih (i + 1) a ha

theorem hexRows_byte (size i : Nat) (bytes : List UInt8) :
    ∀ c ∈ Buffer.hexRows size i bytes, Char.ofNat c.val.toUInt8.toNat = c := by
  have hbyte : ∀ byte : UInt8,
      (Buffer.hexByte byte).all fun c => Char.ofNat c.val.toUInt8.toNat = c :=
    forall_bytes (by decide +kernel)
  induction bytes generalizing i with
  | nil => exact List.forall_mem_nil _
  | cons byte bytes ih =>
    rw [Buffer.hexRows, List.forall_mem_append, List.forall_mem_append]
    refine ⟨⟨fun c hc => of_decide_eq_true (List.all_eq_true.mp (hbyte byte) c hc), ?_⟩, ih (i + 1)⟩
    split
    · exact List.forall_mem_singleton.mpr (by decide)
    · exact List.forall_mem_singleton.mpr (by decide)

/-- A dump as `setHex` gets it. -/
def Dumped (hex : List Char) : Prop := ∃ size i bytes, hex = Buffer.hexRows size i bytes

theorem dumped_of_readPacket {α : Type} {fields : Read α} {packet : Packet α}
    {buffer c : Buffer} (h : Buffer.readPacket fields buffer = .ok (packet, c)) :
    Dumped packet.hex := by
  obtain ⟨dump, c1, hhex, h⟩ := Reading.bind_eq_ok h
  obtain ⟨value, c2, hvalue, h⟩ := Reading.bind_eq_ok h
  cases h
  by_cases hlong : buffer.data.length < 2 ^ 31
  · rw [Buffer.hex_of_lt hlong] at hhex
    cases hhex
    exact ⟨_, _, _, rfl⟩
  · rw [Buffer.hex_overflow (Nat.le_of_not_lt hlong)] at hhex
    cases hhex

theorem Dumped.storable {hex : List Char} (h : Dumped hex) :
    Storable true (.string (dumpText hex)) := by
  obtain ⟨size, i, bytes, rfl⟩ := h
  have hchars := hexRows_char size i bytes
  refine .string (fun hquote => ?_) fun _ => not_framed_of_start fun hopen => ?_
  · exact absurd (hchars 34 hquote) (by decide)
  · exact absurd (hchars 60 hopen) (by decide)

theorem Dumped.not_zero {hex : List Char} (h : Dumped hex) : 0 ∉ dumpText hex := by
  obtain ⟨size, i, bytes, rfl⟩ := h
  exact fun hzero => absurd (hexRows_char size i bytes 0 hzero) (by decide)

/-- Dumps with the same text are the same. -/
theorem Dumped.eq {hex hex' : List Char} (h : Dumped hex) (h' : Dumped hex')
    (heq : dumpText hex = dumpText hex') : hex = hex' := by
  have hback {hex : List Char} (h : Dumped hex) :
      (dumpText hex).map (fun a => Char.ofNat a.toNat) = hex := by
    obtain ⟨size, i, bytes, rfl⟩ := h
    rw [dumpText, List.map_map]
    conv_rhs => rw [← List.map_id' (Buffer.hexRows size i bytes)]
    exact List.map_congr_left (hexRows_byte size i bytes)
  rw [← hback h, heq, hback h']

/-- What a map is read back as. -/
def shownMap (map : Console.HexMap) : Var :=
  .struct [(Str.ofString "beginIdx", .string (numbers.format map.beginIdx)),
    (Str.ofString "endIdx", .string (numbers.format map.endIdx)),
    (Str.ofString "name", .string (Str.ofString map.name)),
    (Str.ofString "type", .string (Str.ofString map.type))]

/-- What the foot of a packet's message is read back as. -/
def shownFoot (hex : List Char) (maps : List Console.HexMap) : Var :=
  .struct [(Str.ofString "hex", .string ((dumpText hex).flatMap escapeChar)),
    (Str.ofString "maps", .vector (maps.map (shownMap numbers)))]

def shownHead (name : String) (time : Time) : Var :=
  .struct [(Str.ofString "datetime", .string time.text),
    (Str.ofString "name", .string (Str.ofString name))]

/-- What `Console::Write<Packet<Head>>` leaves for the pages. -/
def shownHeadPacket (packet : Packet Head) (time : Time) : Var :=
  .struct [(Str.ofString "body", .struct [
      (Str.ofString "begin", .string (numbers.format packet.value.begin.toUInt32)),
      (Str.ofString "bodysize", .string (numbers.format packet.value.bodysize.toUInt32)),
      (Str.ofString "end", .string (numbers.format packet.value.end_.toUInt32)),
      (Str.ofString "opcode", .string (numbers.format packet.value.opcode.toUInt32))]),
    (Str.ofString "foot", shownFoot numbers packet.hex headMaps),
    (Str.ofString "head", shownHead "Head" time)]

/-- What `Console::Write<Packet<LoginStruct>>` leaves for the pages. -/
def shownLoginPacket (packet : Packet LoginStruct) (time : Time) : Var :=
  .struct [(Str.ofString "body", .struct [
      (Str.ofString "password", .string (packet.value.password.flatMap escapeChar)),
      (Str.ofString "state", .string (numbers.format packet.value.state)),
      (Str.ofString "userid", .string (numbers.format packet.value.userid)),
      (Str.ofString "username", .string (packet.value.username.flatMap escapeChar)),
      (Str.ofString "usertype", .string (numbers.format packet.value.usertype))]),
    (Str.ofString "foot", shownFoot numbers packet.hex (Console.loginMaps packet.value)),
    (Str.ofString "head", shownHead "LoginStruct" time)]

/-- A name that is written as it is. -/
def PlainName (name : String) : Prop :=
  34 ∉ Str.ofString name ∧ ¬Framed (Str.ofString name) ∧
    (Str.ofString name).flatMap escapeChar = Str.ofString name

instance (name : String) : Decidable (PlainName name) :=
  inferInstanceAs (Decidable (_ ∧ _))

theorem PlainName.storable {name : String} (h : PlainName name) :
    Storable true (.string (Str.ofString name)) :=
  .string h.1 fun _ => h.2.1

theorem getHexMap_eq (map : Console.HexMap) :
    getHexMap map = .object [(Str.ofString "beginIdx", .number map.beginIdx),
      (Str.ofString "endIdx", .number map.endIdx),
      (Str.ofString "name", .string (Str.ofString map.name)),
      (Str.ofString "type", .string (Str.ofString map.type))] := rfl

theorem storable_getHexMap {map : Console.HexMap} (hname : PlainName map.name)
    (htype : PlainName map.type) : Storable false (getHexMap map) := by
  rw [getHexMap_eq]
  refine .object ?_ ?_ ?_
  · simp only [List.forall_mem_cons]
    decide
  · simp only [List.forall_mem_cons]
    exact ⟨.number, .number, hname.storable, htype.storable, nofun⟩
  · rintro - m ⟨⟩
    rfl

theorem reread_getHexMap {map : Console.HexMap} (hname : PlainName map.name)
    (htype : PlainName map.type) :
    reread numbers false (getHexMap map) = shownMap numbers map := by
  rw [getHexMap_eq, reread]
  simp only [rereadMembers, reread, hname.2.2, htype.2.2]
  rfl

/-- The maps of the packets have names of the source. -/
theorem plain_headMaps : ∀ map ∈ headMaps, PlainName map.name ∧ PlainName map.type := by decide

theorem plain_loginMaps (login : LoginStruct) :
    ∀ map ∈ Console.loginMaps login, PlainName map.name ∧ PlainName map.type := by
  simp only [Console.loginMaps, List.forall_mem_cons]
  decide

theorem section_setFoot {hex : List Char} {maps : List Console.HexMap} (hhex : Dumped hex)
    (hmaps : ∀ map ∈ maps, PlainName map.name ∧ PlainName map.type) :
    Section (setFoot hex maps) := by
  refine (Section.nil.set (by decide) hhex.storable).set (by decide) (.vector fun v hv => ?_)
  obtain ⟨map, hmap, rfl⟩ := List.mem_map.mp hv
  exact storable_getHexMap (hmaps map hmap).1 (hmaps map hmap).2

theorem reread_setFoot {hex : List Char} {maps : List Console.HexMap}
    (hmaps : ∀ map ∈ maps, PlainName map.name ∧ PlainName map.type) :
    reread numbers true (.object (setFoot hex maps)) = shownFoot numbers hex maps := by
  have hviews : rereadItems numbers (maps.map getHexMap) = maps.map (shownMap numbers) := by
    rw [rereadItems_eq, List.map_map]
    exact List.map_congr_left fun map hmap =>
      reread_getHexMap numbers (hmaps map hmap).1 (hmaps map hmap).2
  have hfoot : setFoot hex maps = [(Str.ofString "hex", .string (dumpText hex)),
      (Str.ofString "maps", .vector (maps.map getHexMap))] := rfl
  rw [hfoot, reread]
  simp only [rereadMembers, reread, hviews]
  rfl

theorem reread_head {name : String} (hname : PlainName name) (time : Time) :
    reread numbers true (.object (set (set [] "name" (.string (Str.ofString name))) "datetime"
      (.string time.text))) = shownHead name time := by
  have htime : time.text.flatMap escapeChar = time.text := by
    conv_rhs => rw [← List.flatMap_singleton' time.text]
    exact List.flatMap_congr fun a ha => (time.plain_char a ha).1
  have hhead : set (set [] "name" (.string (Str.ofString name))) "datetime" (.string time.text) =
      [(Str.ofString "datetime", .string time.text),
        (Str.ofString "name", .string (Str.ofString name))] := rfl
  rw [hhead, reread]
  simp only [rereadMembers, reread, hname.2.2, htime]
  rfl

theorem reread_zip (json : JSONConsoleStruct) (time : Time) :
    reread numbers false (json.zip time) = .struct [
      (Str.ofString "body", reread numbers true (.object json.body)),
      (Str.ofString "foot", reread numbers true (.object json.foot)),
      (Str.ofString "head", reread numbers true
        (.object (set json.head "datetime" (.string time.text))))] := by
  rw [zip_eq, reread]
  simp only [rereadMembers]
  rfl

theorem sections_writeHead {packet : Packet Head} (hhex : Dumped packet.hex) :
    Sections (writeHead packet) where
  head := Section.nil.set (by decide) (PlainName.storable (by decide))
  body := (((Section.nil.set (by decide) .number).set (by decide) .number).set (by decide)
    .number).set (by decide) .number
  foot := section_setFoot hhex plain_headMaps

theorem sections_writeLogin {packet : Packet LoginStruct} (hhex : Dumped packet.hex)
    (husername : 34 ∉ packet.value.username ∧ ¬Framed packet.value.username)
    (hpassword : 34 ∉ packet.value.password ∧ ¬Framed packet.value.password) :
    Sections (writeLogin packet) where
  head := Section.nil.set (by decide) (PlainName.storable (by decide))
  body := ((((Section.nil.set (by decide) .number).set (by decide) .number).set (by decide)
    .number).set (by decide) (.string husername.1 fun _ => husername.2)).set (by decide)
    (.string hpassword.1 fun _ => hpassword.2)
  foot := section_setFoot hhex (plain_loginMaps packet.value)

/-- From what is read back of a header the packet and the time are known. -/
theorem shownHeadPacket_inj {packet packet' : Packet Head} (hhex : Dumped packet.hex)
    (hhex' : Dumped packet'.hex) {time time' : Time}
    (h : shownHeadPacket numbers packet time = shownHeadPacket numbers packet' time') :
    packet = packet' ∧ time = time' := by
  obtain ⟨⟨begin, opcode, bodysize, end_⟩, hex⟩ := packet
  obtain ⟨⟨begin', opcode', bodysize', end'⟩, hex'⟩ := packet'
  obtain ⟨text, plain⟩ := time
  obtain ⟨text', plain'⟩ := time'
  simp only [shownHeadPacket, shownFoot, shownHead, Var.struct.injEq, Var.string.injEq,
    List.cons.injEq, Prod.mk.injEq, true_and, and_true] at h
  obtain ⟨⟨hbegin, hbodysize, hend, hopcode⟩, hdump, htext⟩ := h
  have hfield {n n' : Int32} (h : numbers.format n.toUInt32 = numbers.format n'.toUInt32) :
      n = n' := congrArg Int32.ofUInt32 (numbers.injective h)
  have hsame : some (dumpText hex) = some (dumpText hex') := by
    rw [← decode_escape hhex.not_zero, hdump, decode_escape hhex'.not_zero]
  obtain rfl := hhex.eq hhex' (Option.some.inj hsame)
  obtain rfl := hfield hbegin
  obtain rfl := hfield hbodysize
  obtain rfl := hfield hend
  obtain rfl := hfield hopcode
  subst htext
  exact ⟨rfl, rfl⟩

/-- The message of a header is read back with its four fields and its dump, whose line breaks are
spelled as in JSON.  No other header is read back so. -/
theorem head_row {buffer c : Buffer} {packet : Packet Head}
    (h : Buffer.readHead buffer = .ok (packet, c)) (time : Time) :
    parse (rowText numbers ((writeHead packet).zip time)) =
        .ok (shownHeadPacket numbers packet time) ∧
      Json.decode ((dumpText packet.hex).flatMap escapeChar) = some (dumpText packet.hex) ∧
      ∀ {buffer' c' : Buffer} {packet' : Packet Head} {time' : Time},
        Buffer.readHead buffer' = .ok (packet', c') →
        shownHeadPacket numbers packet time = shownHeadPacket numbers packet' time' →
        packet = packet' ∧ time = time' := by
  have hname : PlainName "Head" := by decide
  have hhex := dumped_of_readPacket h
  have hview : reread numbers true (.object (writeHead packet).body) = .struct [
      (Str.ofString "begin", .string (numbers.format packet.value.begin.toUInt32)),
      (Str.ofString "bodysize", .string (numbers.format packet.value.bodysize.toUInt32)),
      (Str.ofString "end", .string (numbers.format packet.value.end_.toUInt32)),
      (Str.ofString "opcode", .string (numbers.format packet.value.opcode.toUInt32))] := by
    rw [reread]
    rfl
  refine ⟨?_, decode_escape hhex.not_zero, fun h' =>
    shownHeadPacket_inj numbers hhex (dumped_of_readPacket h')⟩
  rw [parse_row numbers (sections_writeHead hhex) time, reread_zip, hview]
  dsimp only [writeHead]
  rw [reread_setFoot numbers plain_headMaps, reread_head numbers hname]
  rfl

/-- For names that are not framed, the message of a login is read back with its fields and its dump
if and only if neither name has a quote.  The strings are spelled as in JSON, and the spellings of
the names stand for them where these have no zero. -/
theorem login_row_iff {buffer c : Buffer} {packet : Packet LoginStruct}
    (h : Buffer.readLoginStruct buffer = .ok (packet, c)) (time : Time)
    (husername : ¬Framed packet.value.username) (hpassword : ¬Framed packet.value.password) :
    (parse (rowText numbers ((writeLogin packet).zip time)) =
          .ok (shownLoginPacket numbers packet time) ↔
        34 ∉ packet.value.username ∧ 34 ∉ packet.value.password) ∧
      (0 ∉ packet.value.username →
        Json.decode (packet.value.username.flatMap escapeChar) = some packet.value.username) ∧
      (0 ∉ packet.value.password →
        Json.decode (packet.value.password.flatMap escapeChar) = some packet.value.password) ∧
      Json.decode ((dumpText packet.hex).flatMap escapeChar) = some (dumpText packet.hex) := by
  have hhex := dumped_of_readPacket h
  refine ⟨⟨fun hparse => ?_, ?_⟩, decode_escape, decode_escape, decode_escape hhex.not_zero⟩
  · have hbody := ((canonical_of_parse hparse).member List.mem_cons_self).2
    have hnames : ∀ (name : String) (value : Str),
        (Str.ofString name, Var.string (value.flatMap escapeChar)) ∈ _ → 34 ∉ value :=
      fun name value hmem hquote =>
      (hbody.member hmem).2.not_quote (mem_escape.mpr hquote)
    exact ⟨hnames "username" _ (by simp), hnames "password" _ (by simp)⟩
  · rintro ⟨hquote, hquote'⟩
    have hname : PlainName "LoginStruct" := by decide
    have hsections := sections_writeLogin hhex ⟨hquote, husername⟩ ⟨hquote', hpassword⟩
    have hview : reread numbers true (.object (writeLogin packet).body) = .struct [
        (Str.ofString "password", .string (packet.value.password.flatMap escapeChar)),
        (Str.ofString "state", .string (numbers.format packet.value.state)),
        (Str.ofString "userid", .string (numbers.format packet.value.userid)),
        (Str.ofString "username", .string (packet.value.username.flatMap escapeChar)),
        (Str.ofString "usertype", .string (numbers.format packet.value.usertype))] := by
      rw [reread]
      rfl
    rw [parse_row numbers hsections time, reread_zip, hview]
    dsimp only [writeLogin]
    rw [reread_setFoot numbers (plain_loginMaps packet.value), reread_head numbers hname]
    rfl

/-! The packets of a header and of a login as root, both read from their bytes. -/

def midnight : Time where
  text := Str.ofString "2013-01-01 00:00:00"
  plain := List.all_iff_forall_prop.mp rfl

def loginHead : Head := ⟨-1, 1, 24, -1⟩

def rootLogin : LoginStruct := ⟨0, 0, 0, Str.ofString "root", Str.ofString "\"hi"⟩

theorem readHead_login : ∃ packet c, Buffer.readHead (.start (Buffer.writeHead loginHead)) =
    .ok (packet, c) ∧ packet.value = loginHead := ⟨_, _, rfl, rfl⟩

theorem readLoginStruct_root : ∃ packet c,
    Buffer.readLoginStruct (.start (Buffer.writeLoginStruct rootLogin)) = .ok (packet, c) ∧
      packet.value = rootLogin := ⟨_, _, rfl, rfl⟩

theorem head_reread : ∃ packet : Packet Head, packet.value = loginHead ∧
    parse (rowText decimal ((writeHead packet).zip midnight)) =
      .ok (shownHeadPacket decimal packet midnight) := by
  obtain ⟨packet, c, hread, hvalue⟩ := readHead_login
  exact ⟨packet, hvalue, (head_row decimal hread midnight).1⟩

theorem login_not_reread : ∃ packet : Packet LoginStruct, packet.value = rootLogin ∧
    parse (rowText decimal ((writeLogin packet).zip midnight)) ≠
      .ok (shownLoginPacket decimal packet midnight) := by
  obtain ⟨packet, c, hread, hvalue⟩ := readLoginStruct_root
  have hiff := (login_row_iff decimal hread midnight (by rw [hvalue]; decide)
    (by rw [hvalue]; decide)).1
  refine ⟨packet, hvalue, fun hsame => ?_⟩
  have hquote := (hiff.mp hsame).2
  rw [hvalue] at hquote
  exact absurd hquote (by decide)

/-- No string right in one of the objects is framed. -/
def Unframed (json : JSONConsoleStruct) : Prop := ∀ m, json.Has m → ∀ s, m.2 = .string s → ¬Framed s

theorem storable_of_canonical {v : Var} (h : Canonical v) : Storable false v := by
  induction h with
  | string h => exact .string h nofun
  | vector h ih => exact .vector ih
  | struct hsorted hkeys h ih => exact .struct hkeys ih

theorem storable_escaped {v : Var} (h : Canonical v) (hframed : ∀ s, v = .string s → ¬Framed s) :
    Storable true v := by
  cases h with
  | string h => exact .string h fun _ => hframed _ rfl
  | vector h => exact .vector fun v hv => storable_of_canonical (h v hv)
  | struct hsorted hkeys h => exact .struct hkeys fun m hm => storable_of_canonical (h m hm)

namespace JSONConsoleStruct

theorem mem_extract {s into members : List (Str × Var)} {name : String}
    (h : extract s name into = some members) {m : Str × Var} (hm : m ∈ members) :
    m ∈ into ∨ ∃ k part, (k, .struct part) ∈ s ∧ m ∈ part := by
  rw [extract] at h
  split at h
  · rename_i nameStruct hfind
    cases h
    obtain ⟨⟨k, v⟩, hk, rfl⟩ := SortedMaps.mem_of_find hfind
    exact (SortedMaps.mem_of_mem_assignAll hm).imp_right fun hm => ⟨k, nameStruct, hk, hm⟩
  · cases h

/-- What is copied was extracted, also by a copy that stops halfway. -/
theorem extracted_of_copy {s : List (Str × Var)} {m : Str × Var}
    (hm : (new.copy (.struct s)).2.Has m) :
    ∃ name members, extract s name [] = some members ∧ m ∈ members := by
  simp only [copy, new] at hm
  split at hm
  · simp [Has] at hm
  · rename_i head hhead
    split at hm
    · simp only [Has, List.not_mem_nil, or_false] at hm
      exact ⟨_, _, hhead, hm⟩
    · rename_i body hbody
      split at hm
      · rcases hm with hm | hm | hm
        · exact ⟨_, _, hhead, hm⟩
        · exact ⟨_, _, hbody, hm⟩
        · cases hm
      · rename_i foot hfoot
        rcases hm with hm | hm | hm
        · exact ⟨_, _, hhead, hm⟩
        · exact ⟨_, _, hbody, hm⟩
        · exact ⟨_, _, hfoot, hm⟩

theorem sorted_extract {s members : List (Str × Var)} {name : String}
    (h : extract s name [] = some members) : SortedMaps.Sorted members := by
  rw [extract] at h
  split at h
  · cases h
    exact SortedMaps.sorted_assignAll List.Pairwise.nil _
  · cases h

/-- The members of each object are in the order of their names. -/
theorem sorted_copy (var : Var) : SortedMaps.Sorted (new.copy var).2.head ∧
    SortedMaps.Sorted (new.copy var).2.body ∧ SortedMaps.Sorted (new.copy var).2.foot := by
  have hnil : SortedMaps.Sorted ([] : List (Str × Var)) := List.Pairwise.nil
  cases var with
  | struct s =>
    simp only [copy, new]
    split
    · exact ⟨hnil, hnil, hnil⟩
    · rename_i head hhead
      split
      · exact ⟨sorted_extract hhead, hnil, hnil⟩
      · rename_i body hbody
        split
        · exact ⟨sorted_extract hhead, sorted_extract hbody, hnil⟩
        · rename_i foot hfoot
          exact ⟨sorted_extract hhead, sorted_extract hbody, sorted_extract hfoot⟩
  | empty | string | number | vector | object => exact ⟨hnil, hnil, hnil⟩

/-- What is copied is a member of a struct in the struct. -/
theorem mem_copy {var : Var} {m : Str × Var} (hm : (new.copy var).2.Has m) :
    ∃ s k part, var = .struct s ∧ (k, .struct part) ∈ s ∧ m ∈ part := by
  cases var with
  | struct s =>
    obtain ⟨name, members, h, hmem⟩ := extracted_of_copy hm
    rcases mem_extract h hmem with hnil | ⟨k, part, hk, hpart⟩
    · cases hnil
    · exact ⟨s, k, part, rfl, hk, hpart⟩
  | empty | string | number | vector | object => rcases hm with h | h | h <;> cases h

/-- What is copied from a parsed text came from it. -/
theorem fromText_copy {var : Var} (h : Canonical var) {m : Str × Var}
    (hm : (new.copy var).2.Has m) : 34 ∉ m.1 ∧ Canonical m.2 := by
  obtain ⟨s, k, part, rfl, hk, hm⟩ := mem_copy hm
  exact (h.member hk).2.member hm

end JSONConsoleStruct

theorem sections_copy {var : Var} (h : Canonical var)
    (hframed : Unframed (JSONConsoleStruct.new.copy var).2) :
    Sections (JSONConsoleStruct.new.copy var).2 := by
  have hsection : ∀ m, (JSONConsoleStruct.new.copy var).2.Has m → 34 ∉ m.1 ∧ Storable true m.2 := by
    intro m hm
    obtain ⟨hkey, hvalue⟩ := JSONConsoleStruct.fromText_copy h hm
    exact ⟨hkey, storable_escaped hvalue (hframed m hm)⟩
  exact ⟨fun m hm => hsection m (.inl hm), fun m hm => hsection m (.inr (.inl hm)),
    fun m hm => hsection m (.inr (.inr hm))⟩

/-- What a round of `ConsoleData` stores is read back, if no string right in one of the three
objects is framed. -/
theorem message_row {data row : Str} {var : Var} {time : Time} (hvar : parse data = .ok var)
    (hrow : consoleRow numbers data time = .ok row)
    (hframed : Unframed (JSONConsoleStruct.new.copy var).2) :
    parse row = .ok (reread numbers false ((JSONConsoleStruct.new.copy var).2.zip time)) := by
  have heq : row = rowText numbers ((JSONConsoleStruct.new.copy var).2.zip time) := by
    rw [consoleRow, hvar] at hrow
    cases hrow
    rfl
  rw [heq]
  exact parse_row numbers (sections_copy (canonical_of_parse hvar) hframed) time

end Starfall.Messages
