import Starfall.Common.Structs

/-! `Database.cpp`: the check of a login against the table `LOGIN`. -/

namespace Starfall

/-- A row of the table `LOGIN`. -/
structure LoginRow where
  userid : UInt32
  usertype : UInt32
  username : Str
  password : Str
  deriving DecidableEq, Repr

/-- `Database::Select::TryLogin`: the struct with the row's ids when it succeeds.  The query is
taken to select the rows with the given username and password, as it does when there is no quote in
them. -/
def tryLogin (login : List LoginRow) (loginStruct : LoginStruct) : Option LoginStruct :=
  match login.filter fun row =>
    row.username = loginStruct.username ∧ row.password = loginStruct.password with
  | [] => none
  | [row] =>
    if row.userid ≠ loginStruct.userid then
      some { loginStruct with userid := row.userid, usertype := row.usertype }
    else
      none
  | _ :: _ :: _ => none

theorem tryLogin_row {login : List LoginRow} {l l' : LoginStruct}
    (h : tryLogin login l = some l') :
    l'.username = l.username ∧ l'.password = l.password ∧
      (⟨l'.userid, l'.usertype, l'.username, l'.password⟩ : LoginRow) ∈ login := by
  unfold tryLogin at h
  split at h
  · cases h
  · rename_i row hrows
    split at h
    · cases h
      have hmem : row ∈ login.filter fun row =>
          row.username = l.username ∧ row.password = l.password := by
        rw [hrows]
        exact List.mem_singleton_self row
      simp only [List.mem_filter, decide_eq_true_eq] at hmem
      obtain ⟨hrow, hname, hpass⟩ := hmem
      refine ⟨rfl, rfl, ?_⟩
      rw [← hname, ← hpass]
      exact hrow
    · cases h
  · cases h

end Starfall
