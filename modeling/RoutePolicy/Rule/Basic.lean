import RoutePolicy.Text.Pieces

/-!
# Access rules

A rule says which roles may reach the routes of one host and path pattern with which methods. A
policy is a list of rules. Beside the published fields a rule carries working fields, which the
merge fills and which are never written out; `Rule.published` drops them.
-/

namespace RoutePolicy

structure Rule.Working where
  /-- The method tokens while methods are being united. -/
  methods : List String := []
  /-- The signature of the two role sets. -/
  roleKey : String := ""
  /-- The non-empty segments of the path. -/
  fragments : List String := []
  /-- How many leading fragments the rule shares with its predecessor in the list, where both have
  the same role key. -/
  sharedFragments : Nat := 0
  deriving DecidableEq, Repr

structure Rule where
  id : Int64 := 0
  /-- The host pattern. It is empty until the merge fills in the default host. -/
  host : String := ""
  /-- The path pattern, in which every parameter is `*`. -/
  path : String := ""
  /-- One bare method, or a set of methods in braces. -/
  method : String := ""
  authorizedRoles : List String := []
  forbiddenRoles : List String := []
  allowAnyone : Bool := false
  working : Rule.Working := {}
  deriving DecidableEq, Repr

namespace Rule

/-- The rule as a policy file holds it: the working fields are at their defaults. -/
def published (r : Rule) : Rule := { r with working := {} }

def withHost (defaultHost : String) (r : Rule) : Rule :=
  if r.host = "" then { r with host := defaultHost } else r

/-- Nothing but the host is changed. -/
theorem withHost_eq (defaultHost : String) (r : Rule) :
    r.withHost defaultHost = { r with host := if r.host = "" then defaultHost else r.host } := by
  unfold withHost
  split <;> rfl

/-! ## Method sets

The method of a rule is one bare token or a list of tokens in braces. Reading is tolerant: a
brace that is missing on one side is no fault, and of several braces only the outermost is taken
off. Writing always gives the braced form, without repetitions. -/

def dropOpeningBrace : List Char → List Char
  | '{' :: s => s
  | s => s

def dropClosingBrace (s : List Char) : List Char :=
  if s.getLast? = some '}' then s.dropLast else s

/-- The tokens of a method text: the pieces between commas, without the outer braces. -/
def methodTokens (method : String) : List String :=
  ((dropClosingBrace (dropOpeningBrace method.toList)).splitOn ',').map String.ofList

def bracedMethods (methods : List String) : String :=
  String.ofList ('{' :: (Text.joinCommas methods).toList ++ ['}'])

def tokens (r : Rule) : List String := methodTokens r.method

/-- Takes the given tokens, without repetitions, as the rule's methods, and writes the method text
from them. -/
def withMethods (r : Rule) (methods : List String) : Rule :=
  let kept := distinct methods
  { r with method := bracedMethods kept, working := { r.working with methods := kept } }

/-- Reads the working list of methods from the method text. -/
def loadMethods (r : Rule) : Rule :=
  { r with working := { r.working with methods := r.tokens } }

/-- Writes the method text from the working list. -/
def sealMethods (r : Rule) : Rule := r.withMethods r.working.methods

end Rule

end RoutePolicy
