import RoutePolicy.Failure
import RoutePolicy.Json.Value
import RoutePolicy.Rule.Member

/-!
# Reading rules

A rule is read from an object, with its members in any order and among members of other names, or
from a list of its members in their written order. The first four members are required; the
role lists default to empty ones, and nobody is allowed by default. A member that is missing or
repeated is noticed at once, but its place is told only after the container's end was looked for.
-/

namespace RoutePolicy.Rule

open Json
open Text (Read)

structure Draft where
  id : Option Int64 := none
  host : Option String := none
  path : Option String := none
  method : Option String := none
  authorizedRoles : Option (List String) := none
  forbiddenRoles : Option (List String) := none
  allowAnyone : Option Bool := none
  deriving DecidableEq, Repr

namespace Draft

def has (d : Draft) : Member → Bool
  | .id => d.id.isSome
  | .host => d.host.isSome
  | .path => d.path.isSome
  | .method => d.method.isSome
  | .authorizedRoles => d.authorizedRoles.isSome
  | .forbiddenRoles => d.forbiddenRoles.isSome
  | .allowAnyone => d.allowAnyone.isSome

/-- The rule of a draft, or the first required member that it lacks. -/
def rule (d : Draft) : Except Member Rule :=
  match d.id, d.host, d.path, d.method with
  | none, _, _, _ => .error .id
  | _, none, _, _ => .error .host
  | _, _, none, _ => .error .path
  | _, _, _, none => .error .method
  | some id, some host, some path, some method =>
    .ok
      { id, host, path, method
        authorizedRoles := d.authorizedRoles.getD []
        forbiddenRoles := d.forbiddenRoles.getD []
        allowAnyone := d.allowAnyone.getD false }

def readMember (d : Draft) (m : Member) (s : List Char) : Except Fault (Read Draft s) :=
  match m with
  | .id => (readInt64 s).map (·.map fun v => { d with id := some v })
  | .host => (readString s).map (·.map fun v => { d with host := some v })
  | .path => (readString s).map (·.map fun v => { d with path := some v })
  | .method => (readString s).map (·.map fun v => { d with method := some v })
  | .authorizedRoles =>
    (readList readString s).map (·.map fun v => { d with authorizedRoles := some v })
  | .forbiddenRoles =>
    (readList readString s).map (·.map fun v => { d with forbiddenRoles := some v })
  | .allowAnyone => (readBoolean s).map (·.map fun v => { d with allowAnyone := some v })

end Draft

/-! ## Objects -/

/-- The opening quote of the next key of an object, or the end of the object. -/
inductive KeyStart (s : List Char) where
  | done (closing : Read Char s)
  | key (quote : Read Char s)

def keyQuote {s : List Char} (token : Read Char s) : Except Fault (KeyStart s) :=
  if token.value = '"' then .ok (.key token)
  else .error (.next .keyIsNoText (token.value :: token.rest))

/-- Looks for the next key of an object, behind its opening bracket or behind a member. -/
def keyStart (isFirst : Bool) (s : List Char) : Except Fault (KeyStart s) :=
  match token? s with
  | none => .error (.next .endInObject [])
  | some token =>
    if token.value = '}' then .ok (.done token)
    else if isFirst then keyQuote token
    else if token.value = ',' then
      match token? token.rest with
      | none => .error (.next .endInValue [])
      | some first =>
        if first.value = '}' then .error (.next .trailingComma (first.value :: first.rest))
        else keyQuote (token.after first)
    else .error (.next .noCommaInObject (token.value :: token.rest))

def readColon (s : List Char) : Except Fault (Read Unit s) :=
  match token? s with
  | none => .error (.next .endInObject [])
  | some token =>
    if token.value = ':' then .ok (token.map fun _ => ())
    else .error (.next .noColon (token.value :: token.rest))

/-- The place of a fault that is told after the object's end was looked for: behind the blanks, and
behind the closing bracket if it follows. -/
def objectEnd (s : List Char) : List Char :=
  match token? s with
  | none => []
  | some token => if token.value = '}' then token.rest else token.value :: token.rest

/-- Reads the value behind a key: a member that the rule knows goes into the draft, and any other
value is passed over. -/
def readMemberValue (d : Draft) (key : List Char) (s : List Char) : Except Fault (Read Draft s) :=
  match Member.ofName? key with
  | some m => within (.member key) (d.readMember m s)
  | none => within (.member key) ((skipValue s).map (·.map fun _ => d))

/-- The fault of a key that was read before in the same object. -/
def repeatedKey? (d : Draft) (key : List Char) (s : List Char) : Option Fault :=
  match Member.ofName? key with
  | some m =>
    if d.has m then some (.here (.repeatedMember (String.ofList key)) (objectEnd s)) else none
  | none => none

/-- Reads the members of an object behind its opening bracket or behind a member. -/
def readMembers (d : Draft) (isFirst : Bool) (s : List Char) : Except Fault (Read Rule s) :=
  match within .unnamed (keyStart isFirst s) with
  | .error f => .error f
  | .ok (.done closing) =>
    match d.rule with
    | .ok r => .ok (closing.map fun _ => r)
    | .error m => .error (.here (.missingMember (String.ofList m.name)) closing.rest)
  | .ok (.key quote) =>
    match within .unnamed (readText quote.rest) with
    | .error f => .error f
    | .ok key =>
      match repeatedKey? d key.value key.rest with
      | some f => .error f
      | none =>
        match readColon key.rest with
        | .error f => .error f
        | .ok colon =>
          match readMemberValue d key.value colon.rest with
          | .error f => .error f
          | .ok more =>
            let member := quote.after (key.after (colon.after more))
            (readMembers member.value false member.rest).map member.after
termination_by s.length
decreasing_by exact (quote.after (key.after (colon.after more))).shorter

/-! ## Lists -/

/-- What a rule is called where another kind of value stands in its place. -/
def expectedRule : String := "struct PermissionDoc"

def expectedList : String := expectedRule ++ " with 7 elements"

/-- Reads the end of a list that may have no further item. -/
def readListEnd (s : List Char) : Except Fault (Read Unit s) :=
  match token? s with
  | none => .error (.next .endInList [])
  | some token =>
    if token.value = ']' then .ok (token.map fun _ => ())
    else if token.value = ',' then
      match token? token.rest with
      | none => .error (.next .trailingCharacters [])
      | some next =>
        if next.value = ']' then .error (.next .trailingComma (next.value :: next.rest))
        else .error (.next .trailingCharacters (next.value :: next.rest))
    else .error (.next .trailingCharacters (token.value :: token.rest))

/-- Reads the members of a list from number `index` on, and the closing bracket. -/
def readPositional (d : Draft) (index : Nat) (members : List Member) (s : List Char) :
    Except Fault (Read Rule s) :=
  match members with
  | [] =>
    match readListEnd s with
    | .error f => .error f
    | .ok closing =>
      match d.rule with
      | .ok r => .ok (closing.map fun _ => r)
      | .error _ => .error (.here (.tooShort index expectedList) closing.rest)
  | m :: members =>
    match itemStart (index == 0) s with
    | .error f => .error f
    | .ok (.done closing) =>
      match d.rule with
      | .ok r => .ok (closing.map fun _ => r)
      | .error _ => .error (.here (.tooShort index expectedList) closing.rest)
    | .ok (.item first) =>
      match within (.item index) (d.readMember m (first.value :: first.rest)) with
      | .error f => .error f
      | .ok r =>
        let more := first.again r
        (readPositional more.value (index + 1) members more.rest).map more.after

def read (s : List Char) : Except Fault (Read Rule s) :=
  match token? s with
  | none => .error (.next .endInValue [])
  | some token =>
    if token.value = '{' then
      (readMembers {} true token.rest).map token.after
    else if token.value = '[' then
      (readPositional {} 0 Member.all token.rest).map token.after
    else .error (misfitFault expectedRule token.value token.rest)

/-- Reads a text that holds one rule and nothing else but blanks. -/
def readWhole (s : List Char) : Except Fault Rule :=
  match read s with
  | .error f => .error f
  | .ok r =>
    match token? r.rest with
    | none => .ok r.value
    | some token => .error (.next .trailingCharacters (token.value :: token.rest))

def ofJson (text : String) : Except Failure Rule :=
  match readWhole text.toList with
  | .ok r => .ok r
  | .error f => .error (.json (f.report text.toList))

end RoutePolicy.Rule
