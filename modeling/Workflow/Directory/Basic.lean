/-! The roles of principals. Roles, and the principals of a role, are kept in order, each once. -/

namespace Workflow

/-- Adds a text at its place in a sorted list, unless it is there already. -/
def insertText (text : String) : List String → List String
  | [] => [text]
  | other :: rest =>
    if text < other then text :: other :: rest
    else if text = other then other :: rest
    else other :: insertText text rest

structure Directory where
  roles : List (String × List String) := []
deriving Repr, Inhabited

namespace Directory

/-- Replaces the principals of a role by what becomes of them; a new role begins with none. -/
def change (role : String) (update : List String → List String) :
    List (String × List String) → List (String × List String)
  | [] => [(role, update [])]
  | (other, principals) :: rest =>
    if role < other then (role, update []) :: (other, principals) :: rest
    else if role = other then (other, update principals) :: rest
    else (other, principals) :: change role update rest

def addAll (principals members : List String) : List String :=
  principals.foldl (fun members principal => insertText principal members) members

def withRole (role : String) (principals : List String) (directory : Directory) : Directory :=
  { directory with roles := change role (addAll principals) directory.roles }

def grant (role principal : String) (directory : Directory) : Directory :=
  directory.withRole role [principal]

/-- A directory of a table of roles; of two entries for a role the later one counts. -/
def ofTable (table : List (String × List String)) : Directory :=
  ⟨table.foldl (fun roles entry => change entry.1 (fun _ => addAll entry.2 []) roles) []⟩

def holders (directory : Directory) (role : String) : List String :=
  (directory.roles.lookup role).getD []

def hasRole (directory : Directory) (principal role : String) : Bool :=
  directory.holders role |>.contains principal

def rolesOf (directory : Directory) (principal : String) : List String :=
  (directory.roles.filter fun entry => entry.2.contains principal).map (·.1)

end Directory

end Workflow
