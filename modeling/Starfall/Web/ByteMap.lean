import Starfall.Common.RoundTrip
import Starfall.ProofKit.Tilings
import Starfall.Web.Render

/-! The dump of a login against the table of its fields.  `Console::Write` puts both into the foot
of a console message: what `hex` makes of the bytes, and for each field its first and last byte.
The page cuts the dump at its spaces and line breaks, and takes the tokens of a field from there. -/

namespace Starfall.Console

open Buffer ProofKit.Tilings ProofKit.Reading

/-- What `GetHexMap` makes of its arguments. -/
structure HexMap where
  name : String
  type : String
  beginIdx : UInt32
  endIdx : UInt32
  deriving DecidableEq, Repr

/-- The maps of `Console::Write<Packet<LoginStruct>>`, which counts with a `UInt32`. -/
def loginMaps (login : LoginStruct) : List HexMap :=
  let begin : UInt32 := 0
  let end_ : UInt32 := 3
  let state := ⟨"state", "UInt32", begin, end_⟩
  let begin := end_ + 1
  let end_ := end_ + 4
  let userid := ⟨"userid", "UInt32", begin, end_⟩
  let begin := end_ + 1
  let end_ := end_ + 4
  let usertype := ⟨"usertype", "UInt32", begin, end_⟩
  let begin := end_ + 1
  let end_ := end_ + 4 + .ofNat login.username.length
  let username := ⟨"username", "String", begin, end_⟩
  let begin := end_ + 1
  let end_ := end_ + 4 + .ofNat login.password.length
  let password := ⟨"password", "String", begin, end_⟩
  [state, userid, usertype, username, password]

def HexMap.interval (map : HexMap) : Interval := ⟨map.beginIdx.toNat, map.endIdx.toNat⟩

/-- The parts of a dump between spaces and line breaks, without those that are empty. -/
def hexTokens (hex : List Char) : List (List Char) :=
  (hex.splitOnP fun c => c = ' ' || c = '\n').filter fun value => value.length ≠ 0

theorem hexValues_eq (hex : List Char) :
    Components.hexValues hex = (hexTokens hex).map fun value => [.hex value, .whitespace] := rfl

def hexDigit (n : Nat) : Char := "0123456789ABCDEF".toList.getD n '?'

/-- The two digits of a byte. -/
def hexDigits (byte : UInt8) : List Char := [hexDigit (byte.toNat / 16), hexDigit (byte.toNat % 16)]

/-- The fields of a login with their encodings. -/
def loginFields (login : LoginStruct) : List (String × List UInt8) :=
  [ ("state", writeUInt32 login.state),
    ("userid", writeUInt32 login.userid),
    ("usertype", writeUInt32 login.usertype),
    ("username", writeString login.username),
    ("password", writeString login.password) ]

/-- The tokens are the digits of the bytes, and the maps cut them into those of the fields. -/
structure Matches (login : LoginStruct) (dump : List Char) : Prop where
  tokens : hexTokens dump = (writeLoginStruct login).map hexDigits
  tiles : Tiles HexMap.interval 0 (loginMaps login) (writeLoginStruct login).length
  fields : (loginMaps login).map (fun map => (map.name, map.interval.slice (hexTokens dump))) =
    (loginFields login).map fun field => (field.1, field.2.map hexDigits)

theorem hexByte_eq (byte : UInt8) : hexByte byte = hexDigits byte := by
  have h : ∀ n < 256, hexByte (.ofNat n) = hexDigits (.ofNat n) := by decide +kernel
  have := h byte.toNat byte.toNat_lt
  rwa [UInt8.ofNat_toNat] at this

theorem hexDigits_not_separator (byte : UInt8) :
    ∀ c ∈ hexDigits byte, (c = ' ' || c = '\n') = false := by
  have h : ∀ n < 256, (hexDigits (.ofNat n)).any (fun c => c = ' ' || c = '\n') = false := by
    decide +kernel
  have := h byte.toNat byte.toNat_lt
  rw [UInt8.ofNat_toNat, List.any_eq_false] at this
  exact fun c hc => Bool.eq_false_iff.mpr (this c hc)

theorem hexTokens_hexRows (size i : Nat) (bytes : List UInt8) :
    hexTokens (hexRows size i bytes) = bytes.map hexDigits := by
  induction bytes generalizing i with
  | nil => rfl
  | cons byte bytes ih =>
    have htail : ∀ c : Char, (c = ' ' || c = '\n') = true →
        hexTokens (hexDigits byte ++ c :: hexRows size (i + 1) bytes) =
          hexDigits byte :: bytes.map hexDigits := by
      intro c hc
      rw [hexTokens, List.splitOnP_append_cons_of_forall_mem (hexDigits_not_separator byte) c hc,
        List.filter_cons_of_pos (by simp [hexDigits])]
      exact congrArg _ (ih (i + 1))
    rw [hexRows, hexByte_eq, List.map_cons, List.append_assoc]
    split
    · exact htail '\n' rfl
    · exact htail ' ' rfl

theorem loginFields_flatten (login : LoginStruct) :
    ((loginFields login).map (·.2)).flatten = writeLoginStruct login := by
  simp [loginFields, writeLoginStruct]

theorem loginFields_pos (login : LoginStruct) :
    ∀ field ∈ loginFields login, 0 < field.2.length := by
  have hstring : ∀ s : Str, 0 < (writeString s).length := fun s => by
    rw [writeString_length]
    omega
  simp only [loginFields, List.forall_mem_cons, writeUInt32_length, hstring]
  decide

theorem endIdx_toNat (end_ : UInt32) (n : Nat) (h : end_.toNat + 4 + n < 2 ^ 32) :
    (end_ + 4 + .ofNat n).toNat = end_.toNat + 4 + n := by
  rw [UInt32.toNat_add, UInt32.toNat_add, UInt32.toNat_ofNat']
  change ((end_.toNat + 4) % 2 ^ 32 + n % 2 ^ 32) % 2 ^ 32 = _
  omega

theorem beginIdx_toNat (end_ : UInt32) (h : end_.toNat + 1 < 2 ^ 32) :
    (end_ + 1).toNat = end_.toNat + 1 := by
  rw [UInt32.toNat_add]
  exact Nat.mod_eq_of_lt h

/-- The maps have the intervals of the encodings, as long as the last byte is one of a `UInt32`. -/
theorem loginMaps_intervals {login : LoginStruct}
    (h : 20 + login.username.length + login.password.length < 2 ^ 32) :
    (loginMaps login).map HexMap.interval =
      intervals 0 ((loginFields login).map (·.2.length)) := by
  have husertype : (3 + 4 + 4 : UInt32).toNat = 11 := rfl
  have husername := endIdx_toNat (3 + 4 + 4) login.username.length
    (by rw [husertype]; omega)
  rw [husertype] at husername
  have hpassword := endIdx_toNat (3 + 4 + 4 + 4 + .ofNat login.username.length)
    login.password.length (by rw [husername]; omega)
  have hbegin := beginIdx_toNat (3 + 4 + 4 + 4 + .ofNat login.username.length)
    (by rw [husername]; omega)
  rw [husername] at hpassword hbegin
  simp only [loginMaps, loginFields, List.map_cons, List.map_nil, intervals, HexMap.interval,
    writeUInt32_length, writeString_length, hpassword, hbegin, husername]
  simp only [List.cons.injEq, Interval.mk.injEq, and_true]
  refine ⟨⟨rfl, rfl⟩, ⟨rfl, rfl⟩, ⟨rfl, rfl⟩, ⟨rfl, ?_⟩, ?_, ?_⟩
  all_goals omega

theorem loginMaps_fields {login : LoginStruct} {tokens : List (List Char)}
    (h : 20 + login.username.length + login.password.length < 2 ^ 32)
    (htokens : tokens = (writeLoginStruct login).map hexDigits) :
    (loginMaps login).map (fun map => (map.name, map.interval.slice tokens)) =
      (loginFields login).map fun field => (field.1, field.2.map hexDigits) := by
  have hpieces : ((loginFields login).map fun field => field.2.map hexDigits).flatten = tokens := by
    rw [htokens, ← loginFields_flatten, List.map_flatten, List.map_map]
    rfl
  have hnonempty : ∀ piece ∈ (loginFields login).map fun field => field.2.map hexDigits,
      piece ≠ [] := by
    rintro piece hpiece
    obtain ⟨field, hfield, rfl⟩ := List.mem_map.mp hpiece
    rw [← List.length_pos_iff, List.length_map]
    exact loginFields_pos login field hfield
  have hlengths : (List.length ∘ fun field : String × List UInt8 => field.2.map hexDigits) =
      fun field => field.2.length := by
    funext field
    exact List.length_map _
  have hslices := slices_flatten hnonempty []
  rw [List.nil_append, hpieces, List.length_nil, List.map_map, hlengths,
    ← loginMaps_intervals h, List.map_map] at hslices
  have hnames : (loginMaps login).map (·.name) = (loginFields login).map (·.1) := rfl
  have hzip := congrArg₂ List.zip hnames hslices
  rwa [List.zip_map', List.zip_map'] at hzip

/-- From `2^31` bytes on `hex` has no dump. -/
theorem matched_lt {login : LoginStruct} {dump : List Char} {c : Buffer}
    (h : hex (.start (writeLoginStruct login)) = .ok (dump, c)) :
    20 + login.username.length + login.password.length < 2 ^ 31 := by
  rw [← writeLoginStruct_length]
  by_contra hlong
  rw [hex_overflow (by simpa using hlong)] at h
  cases h

/-- The dump of a login has the digits of its fields where the maps say, if and only if `hex` can
count the bytes with an `int`. -/
theorem login_matches_iff (login : LoginStruct) :
    (∃ dump c, hex (.start (writeLoginStruct login)) = .ok (dump, c) ∧ Matches login dump) ↔
      20 + login.username.length + login.password.length < 2 ^ 31 := by
  constructor
  · rintro ⟨dump, c, hhex, -⟩
    exact matched_lt hhex
  · intro hshort
    have hfits : 20 + login.username.length + login.password.length < 2 ^ 32 := by omega
    rw [← writeLoginStruct_length] at hshort
    have htokens := hexTokens_hexRows (writeLoginStruct login).length 0 (writeLoginStruct login)
    refine ⟨_, _, hex_of_lt hshort, htokens, ?_, loginMaps_fields hfits htokens⟩
    have htiles := tiles_intervals (List.forall_mem_map.mpr (loginFields_pos login)) 0
    have hsum : ((loginFields login).map (·.2.length)).sum = (writeLoginStruct login).length := by
      rw [← loginFields_flatten, List.length_flatten, List.map_map]
      rfl
    rwa [← loginMaps_intervals hfits, tiles_map, Nat.zero_add, hsum] at htiles

/-- A username of `2^31` bytes is one of the strings, and has no dump. -/
theorem longLogin_noDump :
    20 + (longLogin (2 ^ 31)).username.length + (longLogin (2 ^ 31)).password.length < 2 ^ 32 ∧
      ¬∃ dump c, hex (.start (writeLoginStruct (longLogin (2 ^ 31)))) = .ok (dump, c) ∧
        Matches (longLogin (2 ^ 31)) dump := by
  have hlength : (longLogin (2 ^ 31)).username.length = 2 ^ 31 := List.length_replicate
  constructor
  · rw [hlength]
    decide
  · rintro ⟨dump, c, hhex, -⟩
    have hlt := matched_lt hhex
    rw [hlength] at hlt
    exact absurd hlt (by decide)

end Starfall.Console
