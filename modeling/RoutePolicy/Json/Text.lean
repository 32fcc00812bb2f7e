import RoutePolicy.Json.Basic
import RoutePolicy.Text.Read

/-!
# JSON texts

`encode` writes a text in quotes and escapes only what has to be escaped: the quote, the backslash
and the control characters. `readText` reads every escape that JSON has, and `afterText` passes over
a text whose value is of no interest, so that lone surrogates in it do no harm.
-/

namespace RoutePolicy.Json

open Text (Read)

/-! ## Writing -/

def encodeChar (c : Char) : List Char :=
  if c = '"' then ['\\', '"']
  else if c = '\\' then ['\\', '\\']
  else if c = '\x08' then ['\\', 'b']
  else if c = '\t' then ['\\', 't']
  else if c = '\n' then ['\\', 'n']
  else if c = '\x0c' then ['\\', 'f']
  else if c = '\r' then ['\\', 'r']
  else if c.toNat < 0x20 then
    ['\\', 'u', '0', '0', Text.hexDigit (c.toNat / 16), Text.hexDigit (c.toNat % 16)]
  else [c]

def encode (s : List Char) : List Char := '"' :: s.flatMap encodeChar ++ ['"']

/-! ## Escapes -/

def hexValue4? (a b c d : Char) : Option Nat :=
  match Text.hexValue? a, Text.hexValue? b, Text.hexValue? c, Text.hexValue? d with
  | some a, some b, some c, some d => some (((a * 16 + b) * 16 + c) * 16 + d)
  | _, _, _, _ => none

/-- The fault where four hexadecimal digits are wanted: the text ends within the next four bytes, or
they are something else. -/
def hexFault (s : List Char) : Fault :=
  if (utf8 s).length < 4 then .here .endInText []
  else { problem := .badEscape, rest := s, ahead := 4 }

def readHex4 : (s : List Char) → Except Fault (Read Nat s)
  | a :: b :: c :: d :: s =>
    match hexValue4? a b c d with
    | some n => .ok ⟨n, s, by simp only [List.length_cons]; omega⟩
    | none => .error (hexFault (a :: b :: c :: d :: s))
  | s => .error (hexFault s)

def isHighSurrogate (n : Nat) : Bool := 0xD800 ≤ n && n ≤ 0xDBFF

def isLowSurrogate (n : Nat) : Bool := 0xDC00 ≤ n && n ≤ 0xDFFF

/-- Reads the backslash and the `u` that have to follow the first half of a surrogate pair. -/
def readPairMark : (s : List Char) → Except Fault (Read Unit s)
  | [] => .error (.here .endInText [])
  | '\\' :: [] => .error (.here .endInText [])
  | '\\' :: 'u' :: s => .ok ⟨(), s, by simp only [List.length_cons]; omega⟩
  | '\\' :: s => .error (.next .unpairedSurrogate s)
  | s => .error (.next .unpairedSurrogate s)

/-- Reads the second half of a surrogate pair, and gives the character of the pair. -/
def readLowSurrogate (high : Nat) (s : List Char) : Except Fault (Read Char s) :=
  match readPairMark s with
  | .error f => .error f
  | .ok mark =>
    match readHex4 mark.rest with
    | .error f => .error f
    | .ok low =>
      if isLowSurrogate low.value then
        .ok (mark.after (low.map fun n =>
          Char.ofNat (0x10000 + (high - 0xD800) * 0x400 + (n - 0xDC00))))
      else .error (.here .loneSurrogate low.rest)

/-- Reads the code units of an escape behind its `u`. -/
def readUnits (s : List Char) : Except Fault (Read Char s) :=
  match readHex4 s with
  | .error f => .error f
  | .ok unit =>
    if isLowSurrogate unit.value then .error (.here .loneSurrogate unit.rest)
    else if isHighSurrogate unit.value then
      (readLowSurrogate unit.value unit.rest).map unit.after
    else .ok (unit.map Char.ofNat)

/-- The character of an escape that is one letter long. -/
def shortEscape? (c : Char) : Option Char :=
  if c = '"' then some '"'
  else if c = '\\' then some '\\'
  else if c = '/' then some '/'
  else if c = 'b' then some '\x08'
  else if c = 'f' then some '\x0c'
  else if c = 'n' then some '\n'
  else if c = 'r' then some '\r'
  else if c = 't' then some '\t'
  else none

def readEscape : (s : List Char) → Except Fault (Read Char s)
  | [] => .error (.here .endInText [])
  | c :: s =>
    match shortEscape? c with
    | some e => .ok (.one e c s)
    | none =>
      if c = 'u' then (readUnits s).map (Read.cons c)
      else .error (.next .badEscape (c :: s))

def skipEscape : (s : List Char) → Except Fault (Read Unit s)
  | [] => .error (.here .endInText [])
  | c :: s =>
    if (shortEscape? c).isSome then .ok (.one () c s)
    else if c = 'u' then (readHex4 s).map fun r => (r.map fun _ => ()).cons c
    else .error (.next .badEscape (c :: s))

/-! ## Reading -/

/-- Reads a text behind its opening quote. `done` are the characters before, the last one first. -/
def textFrom (done : List Char) : List Char → Except Fault (List Char × List Char)
  | [] => .error (.here .endInText [])
  | c :: s =>
    if c = '"' then .ok (done.reverse, s)
    else if c = '\\' then
      match readEscape s with
      | .error f => .error f
      | .ok e => textFrom (e.value :: done) e.rest
    else if c.toNat < 0x20 then .error (.next .controlCharacter (c :: s))
    else textFrom (c :: done) s
termination_by s => s.length
decreasing_by
  · exact Nat.lt_succ_of_lt e.shorter
  · exact Nat.lt_succ_self _

theorem length_textFrom {done s value rest : List Char}
    (h : textFrom done s = .ok (value, rest)) : rest.length < s.length := by
  fun_induction textFrom done s with
  | case1 => simp at h
  | case2 done s => simp at h; simp [h.2]
  | case3 => simp at h
  | case4 done s e _ _ ih => exact Nat.lt_succ_of_lt (Nat.lt_trans (ih h) e.shorter)
  | case5 => simp at h
  | case6 done c s _ _ _ ih => exact Nat.lt_succ_of_lt (ih h)

def readText (s : List Char) : Except Fault (Read (List Char) s) :=
  Read.certify (textFrom [] s) fun _ _ => length_textFrom

def afterText : List Char → Except Fault (List Char)
  | [] => .error (.here .endInText [])
  | c :: s =>
    if c = '"' then .ok s
    else if c = '\\' then
      match skipEscape s with
      | .error f => .error f
      | .ok e => afterText e.rest
    else if c.toNat < 0x20 then .error (.here .controlCharacter (c :: s))
    else afterText s
termination_by s => s.length
decreasing_by
  · exact Nat.lt_succ_of_lt e.shorter
  · exact Nat.lt_succ_self _

theorem length_afterText {s rest : List Char} (h : afterText s = .ok rest) :
    rest.length < s.length := by
  fun_induction afterText s with
  | case1 => simp at h
  | case2 s => simp at h; simp [h]
  | case3 => simp at h
  | case4 s e _ _ ih => exact Nat.lt_succ_of_lt (Nat.lt_trans (ih h) e.shorter)
  | case5 => simp at h
  | case6 c s _ _ _ ih => exact Nat.lt_succ_of_lt (ih h)

end RoutePolicy.Json
