import Starfall.Common.Database
import Starfall.ProofKit.Lexing

/-! The query of `Database::Select::TryLogin`.  The username and the password are put between single
quotes as they are, while the `Insert` functions of the same file bind their values.  So the query
asks for the given credentials exactly when there is no quote in them. -/

namespace Starfall.Query

open ProofKit.Lexing

/-- A token of SQL.  Numbers and keywords are words, and an operator of several characters is
several symbols. -/
inductive Token
  | word (text : Str)
  | literal (value : Str)
  /-- A name in double quotes, backquotes or square brackets. -/
  | name (text : Str)
  | symbol (c : UInt8)
  deriving DecidableEq, Repr

def quote : UInt8 := 39

def isSpace (c : UInt8) : Bool := c = 32 ∨ c = 9 ∨ c = 10 ∨ c = 12 ∨ c = 13

/-- Letters, digits, `_`, `$` and the bytes outside of ASCII. -/
def isWordChar (c : UInt8) : Bool :=
  65 ≤ c ∧ c ≤ 90 ∨ 97 ≤ c ∧ c ≤ 122 ∨ 48 ≤ c ∧ c ≤ 57 ∨ c = 95 ∨ c = 36 ∨ 128 ≤ c

/-- What follows a comment that is ended by `*/` or by the end of the text. -/
def afterComment : Str → Str
  | [] => []
  | [_] => []
  | a :: b :: s => if a = 42 ∧ b = 47 then s else afterComment (b :: s)

/-- The lexeme that begins with `c`. -/
def lexeme : Lexer UInt8 Token := fun c s =>
  if isSpace c then some (none, s.dropWhile isSpace)
  else if c = 45 ∧ s.head? = some 45 then some (none, s.dropWhile (· ≠ 10))
  else if c = 47 ∧ s.head? = some 42 then some (none, afterComment (s.drop 1))
  else if c = quote then (literal quote s).map fun r => (some (.literal r.1), r.2)
  else if c = 34 ∨ c = 96 then (literal c s).map fun r => (some (.name r.1), r.2)
  else if c = 91 then
    if 93 ∈ s then
      some (some (.name (s.takeWhile (· ≠ 93))), (s.dropWhile (· ≠ 93)).drop 1)
    else none
  else if isWordChar c then
    some (some (.word (c :: s.takeWhile isWordChar)), s.dropWhile isWordChar)
  else some (some (.symbol c), s)

def tokens (text : Str) : Option (List Token) := lex lexeme text

theorem afterComment_length (s : Str) : (afterComment s).length ≤ s.length := by
  induction s using afterComment.induct with
  | case1 => exact Nat.le_refl _
  | case2 a => exact Nat.zero_le _
  | case3 a b s h =>
    rw [afterComment, if_pos h]
    simp only [List.length_cons]
    omega
  | case4 a b s h ih =>
    rw [afterComment, if_neg h]
    exact Nat.le_succ_of_le ih

theorem lexeme_advances : Advances lexeme := by
  intro c s t rest h
  have dropped (p : UInt8 → Bool) : (s.dropWhile p).length ≤ s.length :=
    (List.dropWhile_sublist p).length_le
  unfold lexeme at h
  split at h
  · cases h
    exact dropped _
  split at h
  · cases h
    exact dropped _
  split at h
  · cases h
    have := afterComment_length (s.drop 1)
    rw [List.length_drop] at this
    omega
  split at h
  · obtain ⟨⟨value, rest⟩, hs, h⟩ := Option.map_eq_some_iff.mp h
    cases h
    exact (literal_length hs).le
  split at h
  · obtain ⟨⟨value, rest⟩, hs, h⟩ := Option.map_eq_some_iff.mp h
    cases h
    exact (literal_length hs).le
  split at h
  · split at h
    · cases h
      have := dropped (· ≠ 93)
      rw [List.length_drop]
      omega
    · cases h
  split at h
  · cases h
    exact dropped _
  · cases h
    exact Nat.le_refl _

theorem tokens_eq_some_iff {text : Str} {ts : List Token} :
    tokens text = some ts ↔ Lexes lexeme text ts :=
  lex_eq_some_iff lexeme_advances

/-- The word is the keyword or the name `w`, in upper or lower case. -/
def isNamed (word : Str) (w : String) : Bool :=
  word.map (fun c => if 97 ≤ c ∧ c ≤ 122 then c - 32 else c) = Str.ofString w

/-- The text that an operand stands for in a row. -/
def operand : Token → Option (LoginRow → Str)
  | .literal value => some fun _ => value
  | .word w =>
    if isNamed w "USERNAME" then some LoginRow.username
    else if isNamed w "PASSWORD" then some LoginRow.password
    else none
  | _ => none

/-- A condition of comparisons joined by `AND` and `OR`, after the comparisons that `held` has
joined by `AND`. -/
def condition (held : LoginRow → Bool) : List Token → Option (LoginRow → Bool)
  | left :: .symbol 61 :: right :: rest =>
    match operand left, operand right with
    | some left, some right =>
      let held := fun row => held row && left row = right row
      match rest with
      | [] => some held
      | .word w :: rest =>
        if isNamed w "AND" then condition held rest
        else if isNamed w "OR" then
          (condition (fun _ => true) rest).map fun other row => held row || other row
        else none
      | _ => none
    | _, _ => none
  | _ => none

/-- The condition of a query for all columns of `LOGIN`. -/
def whereClause : List Token → Option (LoginRow → Bool)
  | .word select :: .symbol 42 :: .word from_ :: .word login :: .word where_ :: rest =>
    if isNamed select "SELECT" ∧ isNamed from_ "FROM" ∧ isNamed login "LOGIN" ∧
        isNamed where_ "WHERE" then
      condition (fun _ => true) rest
    else none
  | _ => none

/-- The rows that a query selects, when it is a query for all columns of `LOGIN` with such a
condition. -/
def select (text : Str) (login : List LoginRow) : Option (List LoginRow) := do
  let ts ← tokens text
  let holds ← whereClause ts
  pure (login.filter holds)

/-- The text that `TryLogin` hands to the database. -/
def query (username password : Str) : Str :=
  Str.ofString "SELECT * FROM LOGIN WHERE USERNAME='" ++ username ++
    Str.ofString "' AND PASSWORD='" ++ password ++ Str.ofString "'"

def word (w : String) : Token := .word (Str.ofString w)

/-- The tokens of a query for the rows with the given credentials. -/
def loginTokens (username password : Str) : List Token :=
  [word "SELECT", .symbol 42, word "FROM", word "LOGIN", word "WHERE", word "USERNAME",
    .symbol 61, .literal username, word "AND", word "PASSWORD", .symbol 61, .literal password]

/-- The query is the fixed one for these credentials, and selects the rows that have them. -/
def Faithful (username password : Str) : Prop :=
  tokens (query username password) = some (loginTokens username password) ∧
    ∀ login, select (query username password) login =
      some (login.filter fun row => row.username = username ∧ row.password = password)

theorem lexeme_word {c : UInt8} (hc : isWordChar c) (s : Str) :
    lexeme c s = some (some (.word (c :: s.takeWhile isWordChar)), s.dropWhile isWordChar) := by
  have ne (d : UInt8) (hd : isWordChar d = false) : c ≠ d := by
    rintro rfl
    rw [hd] at hc
    cases hc
  have hspace : ¬isSpace c := by
    simp only [isSpace, decide_eq_true_eq]
    rintro (h | h | h | h | h) <;> exact ne _ rfl h
  rw [lexeme, if_neg hspace, if_neg fun h => ne 45 rfl h.1, if_neg fun h => ne 47 rfl h.1,
    if_neg (ne quote rfl), if_neg (not_or.mpr ⟨ne 34 rfl, ne 96 rfl⟩), if_neg (ne 91 rfl),
    if_pos hc]

theorem lexes_word_iff {w : String} {c : UInt8} {w' s : Str} {ts : List Token}
    (hw : Str.ofString w = c :: w') (hchars : (c :: w').all isWordChar)
    (hs : s.takeWhile isWordChar = []) :
    Lexes lexeme (Str.ofString w ++ s) (word w :: ts) ↔ Lexes lexeme s ts := by
  rw [List.all_cons, Bool.and_eq_true, List.all_eq_true] at hchars
  have htake : (w' ++ s).takeWhile isWordChar = w' := by
    rw [List.takeWhile_append_of_pos hchars.2, hs, List.append_nil]
  have hdrop : (w' ++ s).dropWhile isWordChar = s := by
    rw [List.dropWhile_append_of_pos hchars.2]
    have := List.takeWhile_append_dropWhile (p := isWordChar) (l := s)
    rwa [hs] at this
  rw [word, hw, List.cons_append, Lexes.token_iff (lexeme_word hchars.1 _), htake, hdrop]
  simp only [true_and]

theorem lexes_space_iff {s : Str} {ts : List Token} (hs : s.dropWhile isSpace = s) :
    Lexes lexeme (32 :: s) ts ↔ Lexes lexeme s ts := by
  have hnext : lexeme 32 s = some (none, s.dropWhile isSpace) := rfl
  rw [Lexes.gap_iff hnext, hs]

theorem lexes_literal_iff {v s : Str} {ts : List Token} (hs : s.head? ≠ some quote) :
    Lexes lexeme (quote :: (v ++ quote :: s)) (.literal v :: ts) ↔
      quote ∉ v ∧ Lexes lexeme s ts := by
  have hnext : lexeme quote (v ++ quote :: s) =
      (literal quote (v ++ quote :: s)).map fun r => (some (.literal r.1), r.2) := rfl
  cases h : literal quote (v ++ quote :: s) with
  | none =>
    rw [h] at hnext
    refine iff_of_false (Lexes.not_of_none hnext) fun ⟨hv, _⟩ => ?_
    rw [(literal_raw_iff hs).mpr ⟨hv, rfl⟩] at h
    cases h
  | some r =>
    obtain ⟨value, rest⟩ := r
    rw [h] at hnext
    rw [Lexes.token_iff hnext, Token.literal.injEq]
    constructor
    · rintro ⟨rfl, hrest⟩
      obtain ⟨hv, rfl⟩ := (literal_raw_iff hs).mp h
      exact ⟨hv, hrest⟩
    · rintro ⟨hv, hrest⟩
      rw [(literal_raw_iff hs).mpr ⟨hv, rfl⟩] at h
      cases h
      exact ⟨rfl, hrest⟩

/-- The query, cut into the texts of its tokens. -/
theorem query_eq (username password : Str) : query username password =
    Str.ofString "SELECT" ++ 32 :: 42 :: 32 :: (Str.ofString "FROM" ++ 32 ::
      (Str.ofString "LOGIN" ++ 32 :: (Str.ofString "WHERE" ++ 32 ::
        (Str.ofString "USERNAME" ++ 61 :: quote :: (username ++ quote :: 32 ::
          (Str.ofString "AND" ++ 32 :: (Str.ofString "PASSWORD" ++ 61 :: quote ::
            (password ++ quote :: [])))))))) := by
  rw [query]
  simp only [List.append_assoc]
  rfl

/-- The tokens before the password do not depend on it. -/
theorem lexes_password_iff {username password : Str} {ts : List Token} :
    Lexes lexeme (query username password)
        ([word "SELECT", .symbol 42, word "FROM", word "LOGIN", word "WHERE", word "USERNAME",
          .symbol 61, .literal username, word "AND", word "PASSWORD", .symbol 61] ++ ts) ↔
      quote ∉ username ∧ Lexes lexeme (quote :: (password ++ [quote])) ts := by
  have star (s : Str) : lexeme 42 s = some (some (.symbol 42), s) := rfl
  have equals (s : Str) : lexeme 61 s = some (some (.symbol 61), s) := rfl
  rw [query_eq]
  refine Iff.trans (lexes_word_iff rfl rfl rfl) (Iff.trans (lexes_space_iff rfl) ?_)
  refine Iff.trans (Lexes.token_iff (star _)) ((and_iff_right rfl).trans ?_)
  refine Iff.trans (lexes_space_iff rfl) (Iff.trans (lexes_word_iff rfl rfl rfl) ?_)
  refine Iff.trans (lexes_space_iff rfl) (Iff.trans (lexes_word_iff rfl rfl rfl) ?_)
  refine Iff.trans (lexes_space_iff rfl) (Iff.trans (lexes_word_iff rfl rfl rfl) ?_)
  refine Iff.trans (lexes_space_iff rfl) (Iff.trans (lexes_word_iff rfl rfl rfl) ?_)
  refine Iff.trans (Lexes.token_iff (equals _)) ((and_iff_right rfl).trans ?_)
  refine (lexes_literal_iff (by simp [quote])).trans (and_congr_right fun _ => ?_)
  refine Iff.trans (lexes_space_iff rfl) (Iff.trans (lexes_word_iff rfl rfl rfl) ?_)
  refine Iff.trans (lexes_space_iff rfl) (Iff.trans (lexes_word_iff rfl rfl rfl) ?_)
  exact Iff.trans (Lexes.token_iff (equals _)) (and_iff_right rfl)

theorem tokens_query_iff {username password : Str} :
    tokens (query username password) = some (loginTokens username password) ↔
      quote ∉ username ∧ quote ∉ password := by
  rw [tokens_eq_some_iff]
  have hrest := @lexes_password_iff username password [.literal password]
  refine hrest.trans (and_congr_right fun _ => ?_)
  exact (lexes_literal_iff (by simp)).trans (and_iff_left .nil)

theorem whereClause_loginTokens (username password : Str) :
    whereClause (loginTokens username password) = some fun row =>
      (true && decide (row.username = username)) && decide (row.password = password) := rfl

theorem select_query {username password : Str} (hu : quote ∉ username) (hp : quote ∉ password)
    (login : List LoginRow) : select (query username password) login =
      some (login.filter fun row => row.username = username ∧ row.password = password) := by
  rw [select, tokens_query_iff.mpr ⟨hu, hp⟩]
  simp [whereClause_loginTokens]

/-- Without quotes in the credentials, `TryLogin` succeeds when its query selects one row, and that
row has another userid than the one that was given. -/
theorem tryLogin_isSome_iff {login : List LoginRow} {l : LoginStruct} (hu : quote ∉ l.username)
    (hp : quote ∉ l.password) : (tryLogin login l).isSome ↔
      ∃ row, select (query l.username l.password) login = some [row] ∧ row.userid ≠ l.userid := by
  rw [select_query hu hp, tryLogin]
  split
  · rename_i h
    rw [h]
    simp
  · rename_i row h
    rw [h]
    split <;> simp_all
  · rename_i h
    rw [h]
    simp

/-- The credentials cannot rewrite the query exactly when there is no quote in them. -/
theorem faithful_iff (username password : Str) :
    Faithful username password ↔ quote ∉ username ∧ quote ∉ password :=
  ⟨fun h => tokens_query_iff.mp h.1, fun h => ⟨tokens_query_iff.mpr h, select_query h.1 h.2⟩⟩

/-- A password that ends its literal and goes on with a condition that always holds. -/
def injection : Str := Str.ofString "' OR '1'='1"

def otherRow : LoginRow := ⟨7, 0, Str.ofString "root", Str.ofString "secret"⟩

theorem injection_selects :
    ¬Faithful (Str.ofString "admin") injection ∧
      select (query (Str.ofString "admin") injection) [otherRow] = some [otherRow] := by
  refine ⟨fun h => absurd (tokens_query_iff.mp h.1).2 (by decide), ?_⟩
  have hpassword : Lexes lexeme (quote :: (injection ++ [quote])) [.literal [], word "OR",
      .literal [49], .symbol 61, .literal [49]] :=
    .token rfl (.gap rfl (.token rfl (.gap rfl (.token rfl (.token rfl (.token rfl .nil))))))
  have htokens := tokens_eq_some_iff.mpr (lexes_password_iff.mpr
    ⟨(by decide : quote ∉ Str.ofString "admin"), hpassword⟩)
  rw [select, htokens]
  rfl

end Starfall.Query
