/-!
The roles of a conversation. Main statement: `ofName?_name`, that a role is read back from its
name.
-/

namespace Promptry

/-- Who speaks a message. -/
inductive Role where
  | user
  | model
  | tool
  | system
  deriving DecidableEq, Repr, Inhabited

namespace Role

def name : Role → String
  | user => "user"
  | model => "model"
  | tool => "tool"
  | system => "system"

def ofName? (s : String) : Option Role :=
  if s = "user" then some user
  else if s = "model" then some model
  else if s = "tool" then some tool
  else if s = "system" then some system
  else none

theorem ofName?_name (r : Role) : ofName? r.name = some r := by
  cases r <;> decide

theorem name_of_ofName? {s : String} {r : Role} (h : ofName? s = some r) : r.name = s := by
  unfold ofName? at h
  split at h
  · cases h; simp_all [name]
  · split at h
    · cases h; simp_all [name]
    · split at h
      · cases h; simp_all [name]
      · split at h
        · cases h; simp_all [name]
        · cases h

end Role

end Promptry
