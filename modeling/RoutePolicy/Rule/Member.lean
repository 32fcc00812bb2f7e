import RoutePolicy.Json.Value
import RoutePolicy.Rule.Basic

/-!
# The written form of a rule

A rule is written as an object with seven members. Its working fields have no written form.
-/

namespace RoutePolicy.Rule

inductive Member where
  | id
  | host
  | path
  | method
  | authorizedRoles
  | forbiddenRoles
  | allowAnyone
  deriving DecidableEq, Repr

namespace Member

def name : Member → List Char
  | id => "id".toList
  | host => "host".toList
  | path => "path".toList
  | method => "method".toList
  | authorizedRoles => "authorized_roles".toList
  | forbiddenRoles => "forbidden_roles".toList
  | allowAnyone => "allow_anyone".toList

/-- Every member, in the order in which they are written. -/
def all : List Member :=
  [id, host, path, method, authorizedRoles, forbiddenRoles, allowAnyone]

def ofName? (key : List Char) : Option Member := all.find? fun m => decide (m.name = key)

theorem ofName?_name (m : Member) : ofName? m.name = some m := by
  cases m <;> decide

theorem ofName?_eq_some_iff {m : Member} {key : List Char} :
    ofName? key = some m ↔ m.name = key := by
  constructor
  · intro h
    have hfound := List.find?_some h
    exact of_decide_eq_true hfound
  · intro h
    rw [← h, ofName?_name]

theorem ofName?_eq_none_iff {key : List Char} :
    ofName? key = none ↔ ∀ m : Member, m.name ≠ key := by
  simp only [Option.eq_none_iff_forall_ne_some, ne_eq, ofName?_eq_some_iff]

theorem name_inj {m m' : Member} : m.name = m'.name ↔ m = m' := by
  rw [← ofName?_eq_some_iff, ofName?_name, Option.some.injEq, eq_comm]

def written (l : Json.Layout) (r : Rule) (m : Member) : List Char :=
  match m with
  | id => Decimal.ofInt r.id.toInt
  | host => Json.encode r.host.toList
  | path => Json.encode r.path.toList
  | method => Json.encode r.method.toList
  | authorizedRoles => l.list (r.authorizedRoles.map fun role => Json.encode role.toList)
  | forbiddenRoles => l.list (r.forbiddenRoles.map fun role => Json.encode role.toList)
  | allowAnyone => if r.allowAnyone then "true".toList else "false".toList

end Member

def write (l : Json.Layout) (r : Rule) : List Char :=
  l.object (Member.all.map fun m => (m.name, m.written l.inner r))

/-- The rule on one line. -/
def toJson (r : Rule) : String := String.ofList (r.write .compact)

end RoutePolicy.Rule
