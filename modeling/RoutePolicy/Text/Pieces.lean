/-!
# Texts and their pieces

What the readers of annotations and settings share: blanks in the sense of Unicode, the pieces
between commas, the lines of a file, and lists without repetitions.
-/

namespace RoutePolicy.Text

/-! ## Blanks

A blank is a character with the Unicode property `White_Space`. Trimming, splitting into words
and the search for whole words all look at blanks in this sense, which is wider than core's
`Char.isWhitespace` (`isBlank_of_isWhitespace`) and leaves out the control characters U+001C to
U+001F, U+180E, U+200B and U+FEFF. -/

def isBlank (c : Char) : Bool :=
  let n := c.toNat
  (0x09 ≤ n && n ≤ 0x0D) || n == 0x20 || n == 0x85 || n == 0xA0 || n == 0x1680 ||
    (0x2000 ≤ n && n ≤ 0x200A) || n == 0x2028 || n == 0x2029 || n == 0x202F || n == 0x205F ||
    n == 0x3000

theorem isBlank_of_isWhitespace {c : Char} (h : c.isWhitespace) : isBlank c := by
  simp only [Char.isWhitespace, Bool.or_eq_true, decide_eq_true_eq] at h
  rcases h with ((h | h) | h) | h <;> subst h <;> decide

/-- Drops the longest run at the end whose characters all satisfy `p`. -/
def dropEndWhile (p : Char → Bool) (s : List Char) : List Char :=
  (s.reverse.dropWhile p).reverse

def trimStart (s : List Char) : List Char := s.dropWhile isBlank

def trimEnd (s : List Char) : List Char := dropEndWhile isBlank s

def trim (s : List Char) : List Char := trimEnd (trimStart s)

/-- The first word of a text: the first run of characters that are not blank. -/
def firstWord? (s : List Char) : Option (List Char) :=
  match (trimStart s).takeWhile (fun c => !isBlank c) with
  | [] => none
  | word => some word

/-! ## Comma lists and lines

A text is cut with `List.splitOn`, so there is always one piece more than there are separators;
what is dropped afterwards is said by each function. -/

def joinCommas (parts : List String) : String :=
  String.intercalate "," parts

/-- The pieces between the commas, blank pieces included. -/
def splitCommas (s : String) : List String :=
  (s.toList.splitOn ',').map String.ofList

/-- Removes one carriage return at the end. -/
def dropReturn (line : List Char) : List Char :=
  if line.getLast? = some '\r' then line.dropLast else line

/-- The lines among the pieces between newlines: every piece but the last was ended by a newline and
loses the carriage return before it; the last one counts only if it holds something, and keeps
its carriage return. -/
def linesOfPieces : List (List Char) → List (List Char)
  | [] => []
  | [last] => if last = [] then [] else [last]
  | piece :: pieces => dropReturn piece :: linesOfPieces pieces

/-- The lines of a text. A line ends at a newline or at a carriage return and a newline. -/
def lines (s : List Char) : List (List Char) :=
  linesOfPieces (s.splitOn '\n')

/-- Tells whether `s` begins with `start`, and if so gives what follows it. -/
def afterStart? (start s : List Char) : Option (List Char) :=
  if start.isPrefixOf s then some (s.drop start.length) else none

end RoutePolicy.Text

namespace RoutePolicy

/-! ## First occurrences

`distinctBy key xs` keeps an item exactly when no earlier item has its key. Methods, roles and
role signatures are all cleaned of repetitions by `distinct`, which for texts is `distinctTexts`
with their case taken as it is (`distinctTexts_false`). -/

variable {α β : Type}

/-- The items whose key is not the key of an earlier item, in their order. -/
def distinctBy [DecidableEq β] (key : α → β) : List α → List α
  | [] => []
  | x :: xs => x :: (distinctBy key xs).filter (fun y => decide (key y ≠ key x))

/-- The items that do not occur earlier, in their order. -/
def distinct [DecidableEq α] (xs : List α) : List α :=
  distinctBy id xs

/-- The key under which texts are compared: the text, or its ASCII lower-case form. -/
def textKey (ignoreCase : Bool) (s : String) : String :=
  if ignoreCase then String.ofList (s.toList.map Char.toLower) else s

/-- The texts without repetitions. The spelling kept is that of the first occurrence. -/
def distinctTexts (ignoreCase : Bool) (items : List String) : List String :=
  distinctBy (textKey ignoreCase) items

/-- Methods and roles are texts whose case counts. -/
theorem distinctTexts_false : distinctTexts false = distinct := rfl

end RoutePolicy
