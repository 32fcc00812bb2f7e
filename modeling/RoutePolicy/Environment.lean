import RoutePolicy.Text.Alphanumeric
import RoutePolicy.Text.Pieces

/-!
# Environments

An environment binds names to values. Bindings are only ever added, and a name that is bound keeps
its value. They come from the machine and from an environment file.
-/

namespace RoutePolicy

/-- The bindings of an environment. Of two bindings of one name the first one counts. -/
structure Environment where
  bindings : List (String × String) := []
  deriving DecidableEq, Repr

namespace Environment

def value? (e : Environment) (name : String) : Option String := e.bindings.lookup name

/-- Binds a name, unless it is bound. -/
def bind (e : Environment) (name value : String) : Environment :=
  match e.value? name with
  | some _ => e
  | none => ⟨e.bindings ++ [(name, value)]⟩

/-! ## Environment files

An environment file binds one name per line: `NAME=value`, with `export` in front if one likes. A
value ends at a blank, behind which only a comment may follow. Single quotes keep everything
between them; double quotes keep blanks; a backslash keeps a quote, a blank, a dollar sign or a
backslash and makes a newline of `n`; `$NAME` and `${NAME}` stand for values bound before. Quotes
may span lines. Reading stops at the first line that is malformed, and what was bound before
stays. -/

/-! ### Lines -/

/-- What the characters read so far mean for the next one. -/
inductive Quoting where
  | plain
  /-- Behind a blank, where a comment may begin. -/
  | blank
  | escape
  | double
  | doubleEscape
  | single
  | singleEscape
  deriving DecidableEq, Repr

def Quoting.outside (c : Char) : Quoting :=
  if c = '\\' then escape
  else if c = '"' then double
  else if c = '\'' then single
  else plain

/-- The state behind one more character, or nothing where a comment begins. -/
def Quoting.next? (q : Quoting) (c : Char) : Option Quoting :=
  match q with
  | plain =>
    if Text.isBlank c && c != '\n' && c != '\r' then some blank else some (Quoting.outside c)
  | blank => if c = '#' then none else some (Quoting.outside c)
  | escape => some plain
  | double => some (if c = '\\' then doubleEscape else if c = '"' then plain else double)
  | doubleEscape => some double
  | single => some (if c = '\\' then singleEscape else if c = '\'' then plain else single)
  | singleEscape => some single

inductive NextLine where
  | finished
  | malformed
  | line (content rest : List Char)

def nextLineOf (s : List Char) : List Char := (s.dropWhile (· != '\n')).drop 1

/-- Reads up to the newline at which every quote is closed. `done` are the characters before, the
last one first. -/
def gatherLine (q : Quoting) (done : List Char) : List Char → NextLine
  | [] =>
    if q = .plain then if done = [] then .finished else .line done.reverse [] else .malformed
  | c :: s =>
    match q.next? c with
    | none => .line done.reverse (nextLineOf s)
    | some q =>
      if c = '\n' ∧ q = .plain then .line (Text.dropReturn done.reverse) s
      else gatherLine q (c :: done) s

/-- Reads the next line. A line that is a comment from its start is empty, whatever quotes it
holds. -/
def nextLine (s : List Char) : NextLine :=
  if (Text.trimStart (s.takeWhile (· != '\n'))).head? = some '#' then .line [] (nextLineOf s)
  else gatherLine .plain [] s

theorem length_nextLineOf (s : List Char) : (nextLineOf s).length ≤ s.length := by
  have := (List.dropWhile_sublist (l := s) (· != '\n')).length_le
  simp only [nextLineOf, List.length_drop]
  omega

theorem length_gatherLine {q : Quoting} {done s content rest : List Char}
    (h : gatherLine q done s = .line content rest) :
    rest.length ≤ s.length ∧ (s ≠ [] → rest.length < s.length) := by
  induction s generalizing q done with
  | nil =>
    simp only [gatherLine] at h
    split at h
    · split at h
      · cases h
      · cases h
        simp
    · cases h
  | cons c s ih =>
    simp only [gatherLine] at h
    split at h
    · cases h
      have := length_nextLineOf s
      simp only [List.length_cons]
      omega
    · split at h
      · cases h
        simp
      · have := (ih h).1
        simp only [List.length_cons]
        omega

theorem length_nextLine {s content rest : List Char} (hs : s ≠ [])
    (h : nextLine s = .line content rest) : rest.length < s.length := by
  unfold nextLine at h
  split at h
  · next hc =>
    cases h
    cases s with
    | nil => exact absurd rfl hs
    | cons c s =>
      by_cases hn : c = '\n'
      · subst hn
        simp [Text.trimStart] at hc
      · have := length_nextLineOf s
        simp only [nextLineOf, List.dropWhile_cons, bne_iff_ne, ne_eq, hn, not_false_eq_true,
          if_true, List.length_cons] at this ⊢
        omega
  · exact (length_gatherLine h).2 hs

/-! ### Values -/

inductive ValueMode where
  | text
  | escaped
  | single
  /-- Inside a name behind a dollar sign, given by the characters so far, the last one first. Such a
  name consists of letters and digits of any script. -/
  | name (done : List Char)
  /-- Inside a name in braces. -/
  | braced (done : List Char)
  /-- Behind the value. -/
  | ended
  deriving DecidableEq, Repr

/-- The value of a name whose characters are given from the last one back; an unbound name stands
for nothing. -/
def substituted (e : Environment) (name : List Char) : List Char :=
  match e.value? (String.ofList name.reverse) with
  | some value => value.toList
  | none => []

def unescaped? (c : Char) : Option Char :=
  if c = 'n' then some '\n'
  else if ['\\', '\'', '"', '$', ' '].contains c then some c
  else none

/-- Reads a value. `quoted` tells whether a double quote is open, and `done` are the characters of
the value so far, the last one first. -/
def readValue? (e : Environment) (quoted : Bool) (mode : ValueMode) (done : List Char) :
    List Char → Option (List Char)
  | [] =>
    match mode with
    | .single => none
    | .braced _ => none
    | .name name => if quoted then none else some (done.reverse ++ substituted e name)
    | _ => if quoted then none else some done.reverse
  | c :: s =>
    match mode with
    | .ended =>
      if c = ' ' ∨ c = '\t' then readValue? e quoted .ended done s
      else if c = '#' then some done.reverse
      else none
    | .escaped => (unescaped? c).bind fun d => readValue? e quoted .text (d :: done) s
    | .single =>
      if c = '\'' then readValue? e quoted .text done s
      else readValue? e quoted .single (c :: done) s
    | .name name =>
      if Text.isAlphanumeric c then readValue? e quoted (.name (c :: name)) done s
      else if c = '{' ∧ name = [] then readValue? e quoted (.braced []) done s
      else
        let done := (substituted e name).reverse ++ done
        if c = '$' then readValue? e quoted (.name []) done s
        else readValue? e quoted .text (c :: done) s
    | .braced name =>
      if c = '}' then readValue? e quoted .text ((substituted e name).reverse ++ done) s
      else readValue? e quoted (.braced (c :: name)) done s
    | .text =>
      if c = '$' then readValue? e quoted (.name []) done s
      else if c = '"' then readValue? e (!quoted) .text done s
      else if c = '\\' then readValue? e quoted .escaped done s
      else if quoted then readValue? e quoted .text (c :: done) s
      else if c = '\'' then readValue? e quoted .single done s
      else if c = ' ' ∨ c = '\t' then readValue? e quoted .ended done s
      else readValue? e quoted .text (c :: done) s

/-! ### Bindings -/

inductive LineContent where
  | nothing
  | malformed
  | binding (name value : String)
  deriving DecidableEq, Repr

def readName? (s : List Char) : Option (List Char × List Char) :=
  let inName (c : Char) : Bool := c.isAlphanum || c == '_' || c == '.'
  match s with
  | [] => none
  | c :: _ =>
    if c.isAlpha || c == '_' then some (s.takeWhile inName, s.dropWhile inName) else none

/-- Reads the equals sign behind a name, and the blanks around it. -/
def readEquals? (s : List Char) : Option (List Char) :=
  match Text.trimStart s with
  | '=' :: s => some (Text.trimStart s)
  | _ => none

/-- Reads a name and its equals sign. `export` may stand in front of the name, and is a name itself
if the equals sign follows it. -/
def readTarget? (s : List Char) : Option (List Char × List Char) :=
  (readName? s).bind fun (name, rest) =>
    match readEquals? rest with
    | some value => some (name, value)
    | none =>
      if name = "export".toList then
        (readName? (Text.trimStart rest)).bind fun (name, rest) =>
          (readEquals? rest).map fun value => (name, value)
      else none

def readLine (e : Environment) (line : List Char) : LineContent :=
  let s := Text.trim line
  if s = [] ∨ s.head? = some '#' then .nothing
  else
    match readTarget? s with
    | none => .malformed
    | some (name, value) =>
      if value = [] ∨ value.head? = some '#' then .binding (String.ofList name) ""
      else
        match readValue? e false .text [] value with
        | some v => .binding (String.ofList name) (String.ofList v)
        | none => .malformed

/-- Adds the bindings of a text, line by line, up to the first line that is malformed. -/
def addLines (e : Environment) (s : List Char) : Environment :=
  if _hs : s = [] then e
  else
    match _h : nextLine s with
    | .finished => e
    | .malformed => e
    | .line content rest =>
      match readLine e content with
      | .malformed => e
      | .nothing => e.addLines rest
      | .binding name value => (e.bind name value).addLines rest
termination_by s.length
decreasing_by
  · exact length_nextLine _hs _h
  · exact length_nextLine _hs _h

/-- The lines of a file up to the first one that is no text. -/
def leadingText (bytes : ByteArray) : List Char :=
  let lines := (bytes.data.toList.splitOn 10).map fun line => String.fromUTF8? ⟨line.toArray⟩
  let texts := lines.takeWhile Option.isSome
  let joined := ['\n'].intercalate (texts.map fun text => (text.getD "").toList)
  if texts.length < lines.length ∧ texts ≠ [] then joined ++ ['\n'] else joined

/-- Adds the bindings of an environment file. A byte order mark at its start does not count. -/
def addFile (e : Environment) (bytes : ByteArray) : Environment :=
  match leadingText bytes with
  | '\ufeff' :: s => e.addLines s
  | s => e.addLines s

end Environment

end RoutePolicy
