import RoutePolicy.Proofs.Source.Tag
import RoutePolicy.Proofs.Text.Blank
import RoutePolicy.Source.Scan

/-!
# Comment blocks

A comment line that carries one annotation is noted under its tag and under no other one. The routes
of a block are settled at the line that ends it, so what follows is scanned as if the block had not
been there.
-/

namespace RoutePolicy.Source

open Text (isBlank)

variable {tag other : Tag} {value s : List Char}

theorem valueFrom?_eq_none {word : List Char} {mark : Char} {fresh : Bool} (hword : mark ∈ word)
    (h : mark ∉ s) : valueFrom? word fresh s = none := by
  refine (valueFrom?_eq_none_iff (List.ne_nil_of_mem hword)).2 fun before rest htext hplace => ?_
  obtain ⟨behind, rfl⟩ := hplace.exists_behind
  exact h (htext ▸ List.mem_append_right before (List.mem_append_left behind hword))

def Tag.comment (tag : Tag) (value : List Char) : List Char :=
  ' ' :: (tag.word ++ ' ' :: value)

/-- A value that is read back from the comment line that carries it. -/
structure IsValue (value : List Char) : Prop where
  tight : Text.Tight value
  plain : ∀ c ∈ value, c ≠ '@' ∧ c ≠ '\n'

theorem Tag.exists_word_eq (tag : Tag) : ∃ tail, tag.word = '@' :: tail ∧ '@' ∉ tail := by
  cases tag with
  | router => exact ⟨"Router".toList, rfl, by decide⟩
  | authRoles => exact ⟨"AuthRoles".toList, rfl, by decide⟩
  | forbiddenRoles => exact ⟨"ForbiddenRoles".toList, rfl, by decide⟩

/-- No tag begins like another one. -/
theorem Tag.afterStart?_word (h : other ≠ tag) :
    Text.afterStart? other.word (tag.word ++ s) = none := by
  cases other <;> cases tag <;> first | exact absurd rfl h | rfl

theorem Tag.value?_comment (h : IsValue value) :
    other.value? (tag.comment value) = if other = tag then some value else none := by
  obtain ⟨tail, hword, htail⟩ := tag.exists_word_eq
  obtain ⟨tail', hword', -⟩ := other.exists_word_eq
  -- the space before the tag begins no word, and makes the tag a word
  have hspace : Text.afterStart? other.word (tag.comment value) = none := by
    rw [hword']
    rfl
  have hstep : other.value? (tag.comment value) =
      valueFrom? other.word true (tag.word ++ ' ' :: value) := by
    rw [Tag.value?, Tag.comment, valueFrom?, if_pos rfl, ← Tag.comment, hspace]
    rfl
  rw [hstep, hword, List.cons_append, valueFrom?, if_pos rfl, ← List.cons_append, ← hword]
  by_cases heq : other = tag
  · subst heq
    have htrim : Text.trim (' ' :: value) = value := by
      have hblank : Text.Blank [' '] := Text.blank_singleton rfl
      rw [← List.singleton_append, Text.trim_blank_append value hblank, h.tight.trim_eq]
    rw [Text.afterStart?_append, if_pos rfl]
    exact congrArg some htrim
  · have hmark : '@' ∈ other.word := by
      rw [hword']
      exact List.mem_cons_self
    rw [Tag.afterStart?_word heq, if_neg heq]
    apply valueFrom?_eq_none hmark
    intro hmem
    rcases List.mem_append.1 hmem with hmem | hmem
    · exact htail hmem
    · rcases List.mem_cons.1 hmem with hmem | hmem
      · exact absurd hmem (by decide)
      · exact (h.plain _ hmem).1 rfl

/-! ## Noting comment lines -/

namespace Block

def put (b : Block) : Tag → List (List Char) → Block
  | .router, values => { b with routers := b.routers ++ values }
  | .authRoles, values => { b with authRoles := b.authRoles ++ values }
  | .forbiddenRoles, values => { b with forbiddenRoles := b.forbiddenRoles ++ values }

theorem note_comment (b : Block) (h : IsValue value) :
    b.note (tag.comment value) = b.put tag [value] := by
  simp only [note, Tag.value?_comment h]
  cases tag <;> rfl

theorem put_put (b : Block) (xs ys : List (List Char)) :
    (b.put tag xs).put tag ys = b.put tag (xs ++ ys) := by
  cases tag <;> simp only [put, List.append_assoc]

theorem put_nil (b : Block) : b.put tag [] = b := by
  cases tag <;> simp only [put, List.append_nil]

theorem foldl_note (b : Block) {values : List (List Char)} (h : ∀ value ∈ values, IsValue value) :
    (values.map tag.comment).foldl note b = b.put tag values := by
  induction values generalizing b with
  | nil => exact b.put_nil.symm
  | cons value values ih =>
    have hvalue : IsValue value := h value List.mem_cons_self
    rw [List.map_cons, List.foldl_cons, note_comment b hvalue,
      ih _ fun other hother => h other (List.mem_cons_of_mem value hother), put_put,
      List.singleton_append]

end Block

/-! ## Scanning blocks -/

variable {package file : String} {lines run : List (List Char)}

/-- Tells whether two slashes stand at the start of a line, behind blanks. -/
def isComment (line : List Char) : Bool := ['/', '/'].isPrefixOf (Text.trimStart line)

def commentText (line : List Char) : List Char := (Text.trimStart line).drop 2

theorem comment?_eq (line : List Char) :
    comment? line = if isComment line then some (commentText line) else none := rfl

/-- While comment lines are read, the block holds what they say. -/
theorem scanLines_append_comments (b : Block) (h : ∀ line ∈ run, isComment line = true) :
    scanLines package file b (run ++ lines) =
      scanLines package file ((run.map commentText).foldl Block.note b) lines := by
  induction run generalizing b with
  | nil => rfl
  | cons line run ih =>
    rw [List.cons_append, scanLines, comment?_eq, if_pos (h line List.mem_cons_self)]
    exact ih _ fun other hother => h other (List.mem_cons_of_mem line hother)

def commentLine (comment : List Char) : List Char := '/' :: '/' :: comment

theorem oneLine_comment (tag : Tag) (h : IsValue value) :
    Text.OneLine (commentLine (tag.comment value)) := by
  have hword : '\n' ∉ tag.word := by cases tag <;> decide
  refine ⟨?_, ?_⟩
  · intro hmem
    simp only [commentLine, Tag.comment, List.mem_cons, List.mem_append, Char.reduceEq,
      false_or] at hmem
    rcases hmem with hmem | hmem
    · exact hword hmem
    · exact (h.plain _ hmem).2 rfl
  · -- the last character is the value's or, if it is empty, the space before it
    have hlast : (commentLine (tag.comment value)).getLast? = (' ' :: value).getLast? := by
      rw [commentLine, Tag.comment, ← List.cons_append, ← List.cons_append, ← List.cons_append]
      exact List.getLast?_append_of_ne_nil _ (List.cons_ne_nil _ _)
    rw [hlast, List.getLast?_cons]
    cases hvalue : value.getLast? with
    | none => decide
    | some c =>
      intro hreturn
      have hblank : isBlank c = false := h.tight.last c hvalue
      rw [Option.getD_some, Option.some.injEq] at hreturn
      rw [hreturn] at hblank
      exact absurd hblank (by decide)

theorem scanLines_commentLines (b : Block) (comments : List (List Char)) :
    scanLines package file b (comments.map commentLine ++ lines) =
      scanLines package file (comments.foldl Block.note b) lines := by
  have hcomments : ∀ line ∈ comments.map commentLine, isComment line = true := by
    intro line hline
    obtain ⟨comment, -, rfl⟩ := List.mem_map.1 hline
    rfl
  have htexts : (comments.map commentLine).map commentText = comments := by
    rw [List.map_map]
    exact List.map_id comments
  rw [scanLines_append_comments b hcomments, htexts]

/-- A line that is no comment ends the block, of which nothing reaches the lines behind it. -/
theorem scanLines_block {comments : List (List Char)} {line : List Char}
    (h : comment? line = none) :
    scanLines package file {} (comments.map commentLine ++ line :: lines) =
      (comments.foldl Block.note {}).routes package file ++ scanLines package file {} lines := by
  rw [scanLines_commentLines, scanLines, h]

/-! ## Package lines -/

def declaresPackage (line : List Char) : Bool := "package ".toList.isPrefixOf (Text.trim line)

/-- The first word behind the start of a package line, without semicolons at its end. -/
def packageWord (line : List Char) : List Char :=
  Text.dropEndWhile (· == ';')
    ((Text.trimStart ((Text.trim line).drop "package ".toList.length)).takeWhile fun c =>
      !isBlank c)

/-- What is trimmed does not end with the blank behind `package`, so there is a word behind it. -/
theorem not_blank_of_declaresPackage {line : List Char} (h : declaresPackage line = true) :
    ¬ Text.Blank ((Text.trim line).drop "package ".toList.length) := by
  intro hblank
  obtain ⟨rest, hrest⟩ := List.isPrefixOf_iff_prefix.1 h
  rw [← hrest, List.drop_left] at hblank
  have hlast : (Text.trim line).getLast? = (' ' :: rest).getLast? := by
    rw [← hrest]
    exact List.getLast?_append_of_ne_nil "package".toList (List.cons_ne_nil ' ' rest)
  obtain ⟨c, hc⟩ : ∃ c, (' ' :: rest).getLast? = some c := ⟨_, List.getLast?_cons⟩
  have htight : isBlank c = false := (Text.tight_trim line).last c (hlast.trans hc)
  rcases List.mem_cons.1 (List.mem_of_getLast? hc) with rfl | hmem
  · exact absurd htight (by decide)
  · exact absurd ((hblank c hmem).symm.trans htight) (by decide)

theorem declaredPackage?_eq (line : List Char) :
    declaredPackage? line = if declaresPackage line then some (packageWord line) else none := by
  rw [declaredPackage?, Text.afterStart?, ← declaresPackage]
  by_cases h : declaresPackage line = true
  · rw [if_pos h, if_pos h, Option.bind_some,
      Text.firstWord?_of_not_blank (not_blank_of_declaresPackage h)]
    rfl
  · rw [if_neg h, if_neg h]
    rfl

def packageOf (packageHint : String) (lines : List (List Char)) : String :=
  match lines.find? declaresPackage with
  | some line => String.ofList (packageWord line)
  | none => packageHint

theorem findSome?_declaredPackage? (lines : List (List Char)) :
    lines.findSome? declaredPackage? = (lines.find? declaresPackage).map packageWord := by
  induction lines with
  | nil => rfl
  | cons line lines ih =>
    rw [List.findSome?_cons, declaredPackage?_eq, List.find?_cons]
    cases declaresPackage line with
    | true => rfl
    | false => exact ih

theorem scan_eq_scanLines (packageHint file text : String) :
    scan packageHint file text =
      scanLines (packageOf packageHint (Text.lines text.toList)) file {} (Text.lines text.toList) := by
  rw [scan, findSome?_declaredPackage?, packageOf]
  cases (Text.lines text.toList).find? declaresPackage with
  | none => rfl
  | some line => rfl

theorem declaredPackage?_eq_none {c : Char} (hblank : isBlank c = false) (hc : c ≠ 'p') :
    declaredPackage? (c :: s) = none := by
  have htrim : Text.trim (c :: s) <+: c :: s := by
    have hhead : ∀ d, (c :: s).head? = some d → isBlank d = false := by
      intro d hd
      rwa [← Option.some.inj hd]
    rw [Text.trim, Text.trimStart_eq_self hhead]
    exact Text.prefix_trimEnd (c :: s)
  rw [declaredPackage?_eq, if_neg]
  intro h
  have hprefix : "package ".toList <+: c :: s := (List.isPrefixOf_iff_prefix.1 h).trans htrim
  exact hc (List.cons_prefix_cons.1 hprefix).1.symm

/-- The routes of a text without a package line are those of its lines. -/
theorem scan_eq {packageHint text : String}
    (h : ∀ line ∈ Text.lines text.toList, declaredPackage? line = none) :
    scan packageHint file text = scanLines packageHint file {} (Text.lines text.toList) := by
  rw [scan, List.findSome?_eq_none_iff.2 h]

end RoutePolicy.Source
