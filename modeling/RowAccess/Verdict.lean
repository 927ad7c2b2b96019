/-
RowAccess.Verdict — what a list of rules grants.

`noAccess` forbids every record. It is not the same as a predicate that
restricts nothing, which allows every record.

* `Verdict` — no access, or access under the predicate that was built.
-/

namespace RowAccess

/-- The access granted, with the predicate that stands for it. -/
inductive Verdict (β : Type) where
  /-- No rule grants access to any record. -/
  | noAccess
  /-- A rule allows every record; what was denied before it stays excluded. -/
  | unrestricted (predicate : β)
  /-- The records that meet the predicate are granted. -/
  | filtered (predicate : β)
  deriving BEq

namespace Verdict

variable {β γ : Type}

def isNoAccess : Verdict β → Bool
  | noAccess => true
  | _ => false

def isUnrestricted : Verdict β → Bool
  | unrestricted _ => true
  | _ => false

def isFiltered : Verdict β → Bool
  | filtered _ => true
  | _ => false

/-- The predicate, unless access is denied outright. -/
def predicate? : Verdict β → Option β
  | noAccess => none
  | unrestricted b => some b
  | filtered b => some b

/-- The verdict of the same kind with another predicate. -/
def map (f : β → γ) : Verdict β → Verdict γ
  | noAccess => noAccess
  | unrestricted b => unrestricted (f b)
  | filtered b => filtered (f b)

/-- A verdict as shown to people. -/
def display : Verdict β → String
  | noAccess => "no access"
  | unrestricted _ => "unrestricted access"
  | filtered _ => "filtered access"

end Verdict

end RowAccess
