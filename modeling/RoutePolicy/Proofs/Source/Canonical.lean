import RoutePolicy.Proofs.Route.Parse
import RoutePolicy.Proofs.Route.RouterLine
import RoutePolicy.Proofs.Source.Scan

/-!
# Canonical rules

A canonical rule is one that a single comment block can tell. `Canonical.lines` writes that block: a
router line for every method, the role lines, and a line of code that ends it. Scanning the blocks
of some rules finds one route for every rule and method, with the roles of its own block, and
parsing accepts all of them.
-/

namespace RoutePolicy

open Text (isBlank)

/-- The characters of a path pattern: ASCII letters and digits and some signs. -/
def isPatternChar (c : Char) : Bool :=
  c.isAlphanum || ['_', '.', '/', '-', '+', ':', '$', '*'].contains c

/-- The characters of a method that parsing leaves as it is. -/
def isMethodChar (c : Char) : Bool := c.isDigit || c.isUpper || c == '_'

def isRoleChar (c : Char) : Bool := !isBlank c && c != ',' && c != '@'

/-- A text in which every character is of the given kind, and there is one. -/
def IsWord (kind : Char → Bool) (s : String) : Prop := s ≠ "" ∧ s.toList.all kind = true

instance (kind : Char → Bool) (s : String) : Decidable (IsWord kind s) :=
  inferInstanceAs (Decidable (_ ∧ _))

/-- A rule that a comment block can tell. -/
structure Canonical where
  path : String
  methods : List String
  authorizedRoles : List String
  forbiddenRoles : List String
  path_head : path.toList.head? = some '/'
  path_chars : path.toList.all isPatternChar = true
  methods_ne_nil : methods ≠ []
  methods_nodup : methods.Nodup
  methods_words : ∀ m ∈ methods, IsWord isMethodChar m
  authorizedRoles_ne_nil : authorizedRoles ≠ []
  authorizedRoles_words : ∀ role ∈ authorizedRoles, IsWord isRoleChar role
  forbiddenRoles_words : ∀ role ∈ forbiddenRoles, IsWord isRoleChar role

namespace Canonical

open Source (Tag IsValue Block commentLine)

/-! ## Writing rules as comment blocks -/

/-- The value of the router line of a method, with a parameter for every `*` of the path. -/
def routerValue (r : Canonical) (m : String) : List Char :=
  Parameters.expand r.path.toList ++ ' ' :: '[' :: (m.toList ++ [']'])

def roleValue (roles : List String) : List Char := (", ".intercalate roles).toList

def forbiddenValues (r : Canonical) : List (List Char) :=
  if r.forbiddenRoles = [] then [] else [roleValue r.forbiddenRoles]

/-- The comments of the block: one for every method and one for every role list that is not
empty. -/
def comments (r : Canonical) : List (List Char) :=
  (r.methods.map r.routerValue).map Tag.router.comment ++
    ([roleValue r.authorizedRoles].map Tag.authRoles.comment ++
      r.forbiddenValues.map Tag.forbiddenRoles.comment)

def lines (r : Canonical) : List (List Char) :=
  r.comments.map commentLine ++ ["func f() \x7b\x7d".toList]

def source (rules : List Canonical) : String :=
  String.ofList (Text.endLines (rules.flatMap lines))

def readers : Canonical :=
  ⟨"/a/*", ["GET"], ["user", "admin"], [], by decide, by decide, by decide, by decide, by decide,
    by decide, by decide, by decide⟩

def writers : Canonical :=
  ⟨"/a/*", ["PUT", "M_1"], ["admin"], ["guest"], by decide, by decide, by decide, by decide,
    by decide, by decide, by decide, by decide⟩

example : source [readers, writers] =
    "// @Router /a/\x7bp\x7d [GET]\n// @AuthRoles user, admin\nfunc f() \x7b\x7d\n" ++
    "// @Router /a/\x7bp\x7d [PUT]\n// @Router /a/\x7bp\x7d [M_1]\n// @AuthRoles admin\n" ++
    "// @ForbiddenRoles guest\nfunc f() \x7b\x7d\n" := by decide +kernel

/-! ## The values can be told -/

theorem ne_of_kind {kind : Char → Bool} {c d : Char} (hc : kind c = true) (hd : kind d = false) :
    c ≠ d := by
  intro h
  rw [h, hd] at hc
  cases hc

theorem exists_path_eq (r : Canonical) : ∃ tail, r.path.toList = '/' :: tail ∧
    ∀ c ∈ tail, isPatternChar c = true := by
  obtain ⟨tail, htail⟩ := List.head?_eq_some_iff.1 r.path_head
  refine ⟨tail, htail, fun c hc => ?_⟩
  exact List.all_eq_true.1 r.path_chars c (htail ▸ List.mem_cons_of_mem _ hc)

theorem isWordChar_of_isMethodChar {c : Char} (h : isMethodChar c = true) :
    RouterLine.isWordChar c = true := by
  have halphanum : c.isAlphanum = (c.isUpper || c.isLower || c.isDigit) := rfl
  simp only [isMethodChar, Bool.or_eq_true] at h
  simp only [RouterLine.isWordChar, halphanum, Bool.or_eq_true]
  rcases h with (h | h) | h
  · exact Or.inl (Or.inr h)
  · exact Or.inl (Or.inl (Or.inl h))
  · exact Or.inr h

theorem isPathChar_of_isPatternChar {c : Char} (h : isPatternChar c = true) (hstar : c ≠ '*') :
    RouterLine.isPathChar c = true := by
  simp only [isPatternChar, RouterLine.isPathChar, RouterLine.isWordChar, Bool.or_eq_true,
    List.contains_iff_mem, List.mem_cons, List.not_mem_nil, or_false, beq_iff_eq] at h ⊢
  tauto

theorem isPathChar_of_mem_expand {s : List Char} (h : ∀ c ∈ s, isPatternChar c = true) {c : Char}
    (hc : c ∈ Parameters.expand s) : RouterLine.isPathChar c = true := by
  rcases Parameters.mem_expand hc with hc | ⟨hc, hstar⟩
  · simp only [List.mem_cons, List.not_mem_nil, or_false] at hc
    rcases hc with rfl | rfl | rfl <;> decide
  · exact isPathChar_of_isPatternChar (h c hc) hstar

theorem routerValue_eq {r : Canonical} {tail : List Char} (h : r.path.toList = '/' :: tail)
    (m : String) : r.routerValue m =
      '/' :: (Parameters.expand tail ++ ' ' :: '[' :: (m.toList ++ [']'])) := by
  rw [routerValue, h, Parameters.expand_cons_of_ne (by decide)]
  rfl

theorem isValue_routerValue {r : Canonical} {m : String} (hm : m ∈ r.methods) :
    IsValue (r.routerValue m) := by
  obtain ⟨tail, htail, hpath⟩ := r.exists_path_eq
  have hvalue : r.routerValue m =
      ['/'] ++ (Parameters.expand tail ++ ' ' :: '[' :: m.toList ++ [']']) := by
    rw [routerValue_eq htail]
    simp only [List.cons_append, List.nil_append, List.append_assoc]
  refine ⟨?_, ?_⟩
  · rw [hvalue]
    apply Text.Tight.append
    · exact .of_forall fun c hc => List.mem_singleton.1 hc ▸ rfl
    · exact .of_forall fun c hc => List.mem_singleton.1 hc ▸ rfl
    · exact List.cons_ne_nil _ _
    · exact List.cons_ne_nil _ _
  · intro c hc
    simp only [hvalue, List.mem_append, List.mem_cons, List.not_mem_nil, or_false] at hc
    rcases hc with rfl | ((hc | rfl | rfl | hc) | rfl)
    · decide
    · have hchar : RouterLine.isPathChar c = true := isPathChar_of_mem_expand hpath hc
      exact ⟨ne_of_kind hchar (by decide), ne_of_kind hchar (by decide)⟩
    · decide
    · decide
    · have hchar : isMethodChar c = true := List.all_eq_true.1 (r.methods_words m hm).2 c hc
      exact ⟨ne_of_kind hchar (by decide), ne_of_kind hchar (by decide)⟩
    · decide

theorem tight_of_isWord {role : String} (h : IsWord isRoleChar role) : Text.Tight role.toList := by
  apply Text.Tight.of_forall
  intro c hc
  have hchar : isRoleChar c = true := List.all_eq_true.1 h.2 c hc
  simp only [isRoleChar, Bool.and_eq_true, Bool.not_eq_true'] at hchar
  exact hchar.1.1

theorem roleValue_singleton (role : String) : roleValue [role] = role.toList := by
  rw [roleValue, String.toList_intercalate, List.map_singleton, List.intercalate_singleton]

theorem roleValue_cons_cons (role next : String) (roles : List String) :
    roleValue (role :: next :: roles) =
      role.toList ++ ([',', ' '] ++ roleValue (next :: roles)) := by
  rw [roleValue, String.toList_intercalate, List.map_cons, List.map_cons,
    List.intercalate_cons_cons, List.append_assoc, roleValue, String.toList_intercalate,
    List.map_cons]
  rfl

theorem roleValue_ne_nil {role : String} (roles : List String) (h : IsWord isRoleChar role) :
    roleValue (role :: roles) ≠ [] := by
  have hrole : role.toList ≠ [] := fun hnil => h.1 (String.toList_eq_nil_iff.1 hnil)
  cases roles with
  | nil => rwa [roleValue_singleton]
  | cons next roles =>
    rw [roleValue_cons_cons]
    exact List.append_ne_nil_of_left_ne_nil hrole _

theorem isValue_of_isWord {role : String} (h : IsWord isRoleChar role) : IsValue role.toList := by
  refine ⟨tight_of_isWord h, fun c hc => ?_⟩
  have hchar : isRoleChar c = true := List.all_eq_true.1 h.2 c hc
  exact ⟨ne_of_kind hchar (by decide), ne_of_kind hchar (by decide)⟩

theorem isValue_roleValue {roles : List String} (h : ∀ role ∈ roles, IsWord isRoleChar role) :
    IsValue (roleValue roles) := by
  induction roles with
  | nil => exact ⟨.of_forall (by simp [roleValue]), by simp [roleValue]⟩
  | cons role roles ih =>
    have hrole : IsWord isRoleChar role := h role List.mem_cons_self
    have hroles : ∀ other ∈ roles, IsWord isRoleChar other :=
      fun other hother => h other (List.mem_cons_of_mem role hother)
    cases roles with
    | nil =>
      rw [roleValue_singleton]
      exact isValue_of_isWord hrole
    | cons next roles =>
      have hnext : IsWord isRoleChar next := hroles next List.mem_cons_self
      rw [roleValue_cons_cons]
      refine ⟨?_, ?_⟩
      · apply Text.Tight.append (tight_of_isWord hrole) (ih hroles).tight
        · exact fun hnil => hrole.1 (String.toList_eq_nil_iff.1 hnil)
        · exact roleValue_ne_nil roles hnext
      · intro c hc
        simp only [List.mem_append, List.mem_cons, List.not_mem_nil, or_false] at hc
        rcases hc with hc | (rfl | rfl) | hc
        · exact (isValue_of_isWord hrole).plain c hc
        · decide
        · decide
        · exact (ih hroles).plain c hc

section Values

variable {r : Canonical} {value : List Char}

theorem isValue_of_mem_routerValues (h : value ∈ r.methods.map r.routerValue) : IsValue value := by
  obtain ⟨m, hm, rfl⟩ := List.mem_map.1 h
  exact isValue_routerValue hm

theorem isValue_of_mem_authorizedValues (h : value ∈ [roleValue r.authorizedRoles]) :
    IsValue value := by
  rw [List.mem_singleton.1 h]
  exact isValue_roleValue r.authorizedRoles_words

theorem isValue_of_mem_forbiddenValues (h : value ∈ r.forbiddenValues) : IsValue value := by
  rw [forbiddenValues] at h
  split at h
  · exact absurd h List.not_mem_nil
  · rw [List.mem_singleton.1 h]
    exact isValue_roleValue r.forbiddenRoles_words

theorem exists_of_mem_comments {comment : List Char} (h : comment ∈ r.comments) :
    ∃ (tag : Tag) (value : List Char), IsValue value ∧ comment = tag.comment value := by
  simp only [comments, List.mem_append] at h
  rcases h with h | h | h
  · obtain ⟨value, hvalue, rfl⟩ := List.mem_map.1 h
    exact ⟨.router, value, isValue_of_mem_routerValues hvalue, rfl⟩
  · obtain ⟨value, hvalue, rfl⟩ := List.mem_map.1 h
    exact ⟨.authRoles, value, isValue_of_mem_authorizedValues hvalue, rfl⟩
  · obtain ⟨value, hvalue, rfl⟩ := List.mem_map.1 h
    exact ⟨.forbiddenRoles, value, isValue_of_mem_forbiddenValues hvalue, rfl⟩

end Values

/-- A line of the block is one line of the text, and declares no package. -/
theorem oneLine_of_mem_lines {r : Canonical} {line : List Char} (h : line ∈ r.lines) :
    Text.OneLine line ∧ Source.declaredPackage? line = none := by
  rcases List.mem_append.1 h with h | h
  · obtain ⟨comment, hcomment, rfl⟩ := List.mem_map.1 h
    obtain ⟨tag, value, hvalue, rfl⟩ := exists_of_mem_comments hcomment
    exact ⟨Source.oneLine_comment tag hvalue, Source.declaredPackage?_eq_none rfl (by decide)⟩
  · rw [List.mem_singleton.1 h]
    exact ⟨⟨by decide, by decide⟩, Source.declaredPackage?_eq_none rfl (by decide)⟩

/-! ## Scanning the blocks -/

/-- The route of a rule's method, as scanning finds it. -/
def route (packageHint file : String) (r : Canonical) (m : String) : Route where
  routerLine := String.ofList (r.routerValue m)
  authLine := ", ".intercalate r.authorizedRoles
  forbiddenLine := ", ".intercalate r.forbiddenRoles
  package := packageHint
  file := file

theorem foldl_note_comments (r : Canonical) :
    r.comments.foldl Block.note {} =
      ⟨r.methods.map r.routerValue, [roleValue r.authorizedRoles], r.forbiddenValues⟩ := by
  rw [comments, List.foldl_append, List.foldl_append,
    Block.foldl_note _ fun _ => isValue_of_mem_routerValues,
    Block.foldl_note _ fun _ => isValue_of_mem_authorizedValues,
    Block.foldl_note _ fun _ => isValue_of_mem_forbiddenValues]
  rfl

theorem joined_forbiddenValues (r : Canonical) :
    String.ofList ([','].intercalate r.forbiddenValues) = ", ".intercalate r.forbiddenRoles := by
  rw [forbiddenValues]
  by_cases h : r.forbiddenRoles = []
  · rw [if_pos h, h]
    rfl
  · rw [if_neg h, List.intercalate_singleton, roleValue, String.ofList_toList]

theorem routes_comments (package file : String) (r : Canonical) :
    (r.comments.foldl Block.note {}).routes package file = r.methods.map (r.route package file) := by
  rw [foldl_note_comments, Block.routes, List.map_map]
  refine List.map_congr_left fun m _ => ?_
  rw [Function.comp_apply, joined_forbiddenValues, List.intercalate_singleton, roleValue,
    String.ofList_toList]
  rfl

def pairs (rules : List Canonical) : List (Canonical × String) :=
  rules.flatMap fun r => r.methods.map (Prod.mk r)

theorem pairs_cons (r : Canonical) (rules : List Canonical) :
    pairs (r :: rules) = r.methods.map (Prod.mk r) ++ pairs rules := List.flatMap_cons

theorem of_mem_pairs {rules : List Canonical} {p : Canonical × String} (h : p ∈ pairs rules) :
    p.1 ∈ rules ∧ p.2 ∈ p.1.methods := by
  obtain ⟨r, hr, h⟩ := List.mem_flatMap.1 h
  obtain ⟨m, hm, rfl⟩ := List.mem_map.1 h
  exact ⟨hr, hm⟩

theorem scanLines_lines (package file : String) (rules : List Canonical) :
    Source.scanLines package file {} (rules.flatMap lines) =
      (pairs rules).map fun p => p.1.route package file p.2 := by
  induction rules with
  | nil => rfl
  | cons r rules ih =>
    have hend : Source.comment? "func f() \x7b\x7d".toList = none := by decide
    rw [List.flatMap_cons, lines, List.append_assoc, List.singleton_append,
      Source.scanLines_block hend, routes_comments, ih, pairs_cons, List.map_append, List.map_map]
    rfl

/-- One route is found for every rule and method, with the lines of its own block. -/
theorem scan_source (packageHint file : String) (rules : List Canonical) :
    Source.scan packageHint file (source rules) =
      (pairs rules).map fun p => p.1.route packageHint file p.2 := by
  have hall : ∀ line ∈ rules.flatMap lines,
      Text.OneLine line ∧ Source.declaredPackage? line = none := by
    intro line hline
    obtain ⟨r, -, hline⟩ := List.mem_flatMap.1 hline
    exact oneLine_of_mem_lines hline
  have hlines : Text.lines (source rules).toList = rules.flatMap lines := by
    rw [source, String.toList_ofList]
    exact Text.lines_endLines fun line hline => (hall line hline).1
  rw [Source.scan_eq, hlines, scanLines_lines]
  rw [hlines]
  exact fun line hline => (hall line hline).2

/-! ## Parsing the routes -/

/-- The rule of a single method, before the merge. -/
def rule (r : Canonical) (m : String) : Rule where
  path := r.path
  method := m
  authorizedRoles := r.authorizedRoles
  forbiddenRoles := r.forbiddenRoles

theorem listable_of_isWord {roles : List String} (h : ∀ role ∈ roles, IsWord isRoleChar role) :
    Rule.Listable roles := by
  intro role hrole
  refine ⟨(h role hrole).1, fun hcomma => ?_⟩
  exact absurd (List.all_eq_true.1 (h role hrole).2 _ hcomma) (by decide)

theorem listedRoles_joined {roles : List String} (h : ∀ role ∈ roles, IsWord isRoleChar role) :
    listedRoles (", ".intercalate roles) = roles :=
  listedRoles_intercalate (listable_of_isWord h) fun role hrole => tight_of_isWord (h role hrole)

theorem parseRoles_joined {roles : List String} (h : ∀ role ∈ roles, IsWord isRoleChar role)
    {default : String} (hdefault : roles = [] → default = "") :
    parseRoles (", ".intercalate roles) default = roles := by
  by_cases hroles : roles = []
  · rw [hroles, hdefault hroles]
    rfl
  · have hlisted : listedRoles (", ".intercalate roles) = roles := listedRoles_joined h
    have hne : listedRoles (", ".intercalate roles) ≠ [] := by rwa [hlisted]
    rw [parseRoles_of_ne_nil hne, hlisted]

theorem toUpper_eq_self {c : Char} (h : isMethodChar c = true) : c.toUpper = c := by
  have hisDigit : c.isDigit = (decide ('0'.val ≤ c.val) && decide (c.val ≤ '9'.val)) := rfl
  have hisUpper : c.isUpper = decide ('A'.val ≤ c.val ∧ c.val ≤ 'Z'.val) := rfl
  have hlow : ¬ 'a'.val ≤ c.val := by
    simp only [isMethodChar, hisDigit, hisUpper, Bool.or_eq_true, Bool.and_eq_true,
      decide_eq_true_eq, beq_iff_eq, UInt32.le_iff_toNat_le] at h
    rw [UInt32.le_iff_toNat_le]
    have hdigit : '9'.val.toNat = 57 := rfl
    have hupper : 'Z'.val.toNat = 90 := rfl
    have hlower : 'a'.val.toNat = 97 := rfl
    rcases h with (h | h) | rfl
    · omega
    · omega
    · decide
  exact dif_neg fun hboth => hlow hboth.1

theorem find?_routerValue {r : Canonical} {m : String} (hm : m ∈ r.methods) :
    RouterLine.find? (r.routerValue m) = some ⟨Parameters.expand r.path.toList, m.toList⟩ := by
  obtain ⟨tail, htail, hpath⟩ := r.exists_path_eq
  have hword : IsWord isMethodChar m := r.methods_words m hm
  rw [routerValue_eq htail, htail, Parameters.expand_cons_of_ne (by decide)]
  apply RouterLine.find?_append
  · exact fun c hc => isPathChar_of_mem_expand hpath hc
  · exact fun hnil => hword.1 (String.toList_eq_nil_iff.1 hnil)
  · exact fun c hc => isWordChar_of_isMethodChar (List.all_eq_true.1 hword.2 c hc)

theorem readRouterLine_route {r : Canonical} {m : String} (packageHint file : String)
    (hm : m ∈ r.methods) : (r.route packageHint file m).readRouterLine =
      .ok ⟨Parameters.expand r.path.toList, m.toList⟩ := by
  have htrim : Text.trim (r.routerValue m) ≠ [] := by
    obtain ⟨tail, htail, -⟩ := r.exists_path_eq
    rw [(isValue_routerValue hm).tight.trim_eq, routerValue_eq htail]
    exact List.cons_ne_nil _ _
  simp only [Route.readRouterLine, route, String.toList_ofList, if_neg htrim, find?_routerValue hm]

theorem braceFree_path (r : Canonical) : Parameters.BraceFree r.path.toList := by
  intro c hc
  have hchar : isPatternChar c = true := List.all_eq_true.1 r.path_chars c hc
  exact ⟨ne_of_kind hchar (by decide), ne_of_kind hchar (by decide)⟩

theorem parse_route {r : Canonical} {m : String} (packageHint file : String) (hm : m ∈ r.methods) :
    (r.route packageHint file m).parse =
      .ok { r.route packageHint file m with rule := r.rule m } := by
  have hupper : m.toList.map Char.toUpper = m.toList := by
    have hchars : ∀ c ∈ m.toList, isMethodChar c = true :=
      List.all_eq_true.1 (r.methods_words m hm).2
    have hid : m.toList.map Char.toUpper = m.toList.map id :=
      List.map_congr_left fun c hc => toUpper_eq_self (hchars c hc)
    rw [hid, List.map_id]
  refine Route.parse_eq_ok_iff.2 ⟨_, readRouterLine_route packageHint file hm, ?_⟩
  have hauthorized : parseRoles (r.route packageHint file m).authLine anyRole = r.authorizedRoles :=
    parseRoles_joined r.authorizedRoles_words fun hnil => absurd hnil r.authorizedRoles_ne_nil
  have hforbidden : parseRoles (r.route packageHint file m).forbiddenLine "" = r.forbiddenRoles :=
    parseRoles_joined r.forbiddenRoles_words fun _ => rfl
  rw [Route.ruleFrom, hauthorized, hforbidden, hupper, Parameters.collapse_expand r.braceFree_path,
    String.ofList_toList, String.ofList_toList]
  rfl

theorem parseAll_source (packageHint file : String) (strict : Bool) (rules : List Canonical) :
    (parseAll strict (Source.scan packageHint file (source rules))).value =
      .ok { parsed := (pairs rules).map fun p =>
        { p.1.route packageHint file p.2 with rule := p.1.rule p.2 } } := by
  rw [scan_source]
  exact value_parseAll
    (fun p hp => parse_route packageHint file (of_mem_pairs hp).2) strict

end Canonical

end RoutePolicy
