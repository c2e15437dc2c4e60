/-
# Amend.Engine.Role: the role that a request runs under

A role that the identity names always wins. Otherwise a caller begins as the user or as anonymous, and
for a caller with an id the database may be asked for another role; an empty answer is none.
-/
import Amend.Binding.Argument
import Amend.Engine.Task
import Amend.Identity

namespace Amend

/-- The reserved name of the user id. -/
def userIdName : String := Claim.userId.name

/-- The role of a caller, where `ask` asks the database for one value. -/
def activeRole {τ : Type} (ask : String → List Argument → Task τ (Option String))
    (rolesQuery : Option String) (i : Identity) : Task τ String :=
  match i.role, rolesQuery, i.userId with
  | some role, _, _ => return role
  | none, some sql, some id => do
    let argument ← Task.ofExcept (Argument.ofUserId userIdName id)
    match ← ask sql [argument] with
    | some role => return if role.isEmpty then i.defaultRole else role
    | none => return i.defaultRole
  | none, _, _ => return i.defaultRole

end Amend
