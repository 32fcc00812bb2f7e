import Mathlib
import RoutePolicy.Generate
import RoutePolicy.Proofs.Policy.GroupBy
import RoutePolicy.Proofs.Route.Parameters
import RoutePolicy.Proofs.Route.Reading
import RoutePolicy.Proofs.Source.Annotations
import RoutePolicy.Proofs.Source.Canonical

/-!
# The shape of a policy

What can be said of every rule of a policy that was made from source texts, whatever the texts hold.
The router line settles path and method, the role lines settle the roles (`sourced_of_parse`), and
the merge adds the rest: the host, the place, the braces around the methods and that no two rules
have one path and one role key (`isPolicy_merge`).
-/

namespace RoutePolicy

/-- A path in which no parameter is left. -/
structure IsPattern (path : String) : Prop where
  head : path.toList.head? = some '/'
  chars : ∀ c ∈ path.toList, RouterLine.isPathChar c = true ∨ c = '*'
  unclosed : ∀ before behind, path.toList = before ++ '{' :: behind → '}' ∉ behind

/-- An entry of a role list. -/
structure IsRole (role : String) : Prop where
  ne_empty : role ≠ ""
  trimmed : Text.trim role.toList = role.toList
  comma : ',' ∉ role.toList
  newline : '\n' ∉ role.toList

namespace Rule

/-- A rule as parsing leaves it, filled from the lines of a source text. -/
structure Sourced (r : Rule) : Prop where
  host : r.host = ""
  path : IsPattern r.path
  method : IsWord isMethodChar r.method
  authorized_ne_nil : r.authorizedRoles ≠ []
  authorizedRoles : ∀ role ∈ r.authorizedRoles, IsRole role
  forbiddenRoles : ∀ role ∈ r.forbiddenRoles, IsRole role
  allowAnyone : r.allowAnyone = false

theorem Sourced.of_published {r s : Rule} (h : r.Sourced) (heq : r.published = s.published) :
    s.Sourced := by
  have hpublished : r.published.Sourced := ⟨h.1, h.2, h.3, h.4, h.5, h.6, h.7⟩
  rw [heq] at hpublished
  exact ⟨hpublished.1, hpublished.2, hpublished.3, hpublished.4, hpublished.5, hpublished.6,
    hpublished.7⟩

end Rule

/-! ## Accepted routes -/

section Parsing

variable {line default role : String} {routerLine : RouterLine}

theorem isRole_of_mem_listedRoles (hline : '\n' ∉ line.toList) (h : role ∈ listedRoles line) :
    IsRole role := by
  obtain ⟨hne, hcomma⟩ := listable_listedRoles line role h
  obtain ⟨piece, hpiece, htrim, -⟩ := mem_listedRoles.1 h
  refine ⟨hne, (tight_of_mem_listedRoles h).trim_eq, hcomma, fun hnewline => ?_⟩
  rw [← htrim] at hnewline
  exact hline ((Text.exists_mem_splitOn_iff (by decide)).1
    ⟨piece, hpiece, Text.mem_of_mem_trim hnewline⟩)

theorem isRole_anyRole : IsRole anyRole := ⟨by decide, by decide, by decide, by decide⟩

/-- Somebody is always authorized, and everybody where the line names no one. -/
theorem isRole_of_mem_parseRoles_anyRole (hline : '\n' ∉ line.toList) :
    parseRoles line anyRole ≠ [] ∧ ∀ role ∈ parseRoles line anyRole, IsRole role := by
  by_cases h : listedRoles line = []
  · rw [parseRoles_of_eq_nil h (by decide)]
    exact ⟨List.cons_ne_nil _ _, fun role hrole => List.mem_singleton.1 hrole ▸ isRole_anyRole⟩
  · rw [parseRoles_of_ne_nil h]
    exact ⟨h, fun role => isRole_of_mem_listedRoles hline⟩

theorem isMethodChar_toUpper {c : Char} (h : RouterLine.isWordChar c = true) :
    isMethodChar c.toUpper = true := by
  have halphanum : c.isAlphanum = (c.isAlpha || c.isDigit) := rfl
  have hkept : isMethodChar c = true → isMethodChar c.toUpper = true := by
    intro hc
    rwa [Canonical.toUpper_eq_self hc]
  rw [RouterLine.isWordChar, halphanum, Bool.or_eq_true, Bool.or_eq_true] at h
  rcases h with (halpha | hdigit) | hunderscore
  · rw [isMethodChar, Char.isUpper_toUpper_eq_isAlpha, halpha, Bool.or_true, Bool.true_or]
  · exact hkept (by rw [isMethodChar, hdigit, Bool.true_or, Bool.true_or])
  · exact hkept (by rw [isMethodChar, hunderscore, Bool.or_true])

theorem isPattern_collapse {tail : List Char} (h : ∀ c ∈ tail, RouterLine.isPathChar c = true) :
    IsPattern (String.ofList (Parameters.collapse ('/' :: tail))) := by
  have hpath : ∀ c ∈ '/' :: tail, RouterLine.isPathChar c = true :=
    List.forall_mem_cons.2 ⟨by decide, h⟩
  refine ⟨?_, ?_, ?_⟩
  · rw [String.toList_ofList, Parameters.collapse_cons_of_ne (by decide)]
    rfl
  · intro c hc
    rw [String.toList_ofList] at hc
    exact (Parameters.mem_collapse hc).symm.imp_left (hpath c)
  · intro before behind heq
    rw [String.toList_ofList] at heq
    exact Parameters.closing_not_mem_of_collapse_eq heq

theorem isWord_map_toUpper {method : List Char} (hne : method ≠ [])
    (h : ∀ c ∈ method, RouterLine.isWordChar c = true) :
    IsWord isMethodChar (String.ofList (method.map Char.toUpper)) := by
  refine ⟨?_, ?_⟩
  · rw [Ne, ← String.toList_eq_nil_iff, String.toList_ofList, List.map_eq_nil_iff]
    exact hne
  · rw [String.toList_ofList, List.all_eq_true, List.forall_mem_map]
    exact fun c hc => isMethodChar_toUpper (h c hc)

theorem sourced_of_parse {route accepted : Route} (hrule : route.rule = {})
    (hauth : '\n' ∉ route.authLine.toList) (hforbidden : '\n' ∉ route.forbiddenLine.toList)
    (h : route.parse = .ok accepted) : accepted.rule.Sourced := by
  obtain ⟨line, hread, rfl⟩ := Route.parse_eq_ok_iff.1 h
  have hfind : RouterLine.find? route.routerLine.toList = some line := by
    rw [Route.readRouterLine] at hread
    split at hread
    · cases hread
    · split at hread
      · next found hfound => rw [hfound, Except.ok.inj hread]
      · cases hread
  obtain ⟨reading, -, rfl⟩ := RouterLine.find?_eq_some_iff.1 hfind
  obtain ⟨hne, hroles⟩ := isRole_of_mem_parseRoles_anyRole hauth
  exact {
    host := by rw [Route.ruleFrom, hrule]
    path := isPattern_collapse reading.tail_chars
    method := isWord_map_toUpper reading.method_ne_nil reading.method_chars
    authorized_ne_nil := hne
    authorizedRoles := hroles
    forbiddenRoles := by
      intro role hrole
      have hlisted : role ∈ listedRoles route.forbiddenLine := by
        rwa [← parseRoles_empty route.forbiddenLine]
      exact isRole_of_mem_listedRoles hforbidden hlisted
    allowAnyone := by rw [Route.ruleFrom, hrule] }

end Parsing

/-! ## The merge -/

namespace Policy

structure IsDocument (defaultHost : String) (place : Nat) (r : Rule) : Prop where
  id : r.id = Int64.ofNat (place + 1)
  host : r.host = defaultHost
  path : IsPattern r.path
  method : ∃ tokens : List String, tokens ≠ [] ∧ tokens.Nodup ∧
    (∀ token ∈ tokens, IsWord isMethodChar token) ∧
    r.method.toList = '{' :: ([','].intercalate (tokens.map String.toList) ++ ['}'])
  authorized_ne_nil : r.authorizedRoles ≠ []
  authorizedRoles : ∀ role ∈ r.authorizedRoles, IsRole role
  forbiddenRoles : ∀ role ∈ r.forbiddenRoles, IsRole role
  allowAnyone : r.allowAnyone = false
  roleKey : r.working.roleKey = r.roleKey

/-- Rules that are documents at their places, no two of them with one path and one role key. -/
structure IsPolicy (defaultHost : String) (rules : List Rule) : Prop where
  document : ∀ place (h : place < rules.length), IsDocument defaultHost place rules[place]
  keys_nodup : (rules.map fun r => (r.path, r.working.roleKey)).Nodup

variable {defaultHost : String} {rules : List Rule} {r first : Rule}

theorem tokens_of_sourced (h : r.Sourced) : r.tokens = [r.method] := by
  apply Rule.methodTokens_of_plain
  intro c hc hmem
  have hchar : isMethodChar c = true := List.all_eq_true.1 h.method.2 c hc
  simp only [List.mem_cons, List.not_mem_nil, or_false] at hmem
  rcases hmem with rfl | rfl | rfl <;> exact absurd hchar (by decide)

theorem isDocument_document (sourced : ∀ r ∈ rules, r.Sourced) (place : Nat)
    (h : first ∈ Rule.annotateAll rules) :
    IsDocument defaultHost place (document defaultHost rules place first) := by
  obtain ⟨r, hr, hpublished⟩ := Rule.exists_published_of_mem_annotateAll h
  have hfirst : first.Sourced := (sourced r hr).of_published hpublished
  -- the record that `first` was annotated from is one of its peers
  have hkey : mergeKey defaultHost r.published = mergeKey defaultHost first.published :=
    congrArg (mergeKey defaultHost) hpublished
  have hpeer : r ∈ peers defaultHost rules first := mem_peers.2 ⟨hr, hkey⟩
  have hmethods : ∀ token, token ∈ peerMethods defaultHost rules first ↔
      ∃ peer ∈ peers defaultHost rules first, token = peer.method := by
    intro token
    rw [peerMethods, mem_distinct, List.mem_flatMap]
    refine exists_congr fun peer => and_congr_right fun hpeer => ?_
    rw [tokens_of_sourced (sourced peer (mem_peers.1 hpeer).1), List.mem_singleton]
  exact {
    id := rfl
    host := if_pos hfirst.host
    path := hfirst.path
    method := by
      refine ⟨peerMethods defaultHost rules first, ?_, nodup_distinct _, ?_, ?_⟩
      · exact List.ne_nil_of_mem ((hmethods r.method).2 ⟨r, hpeer, rfl⟩)
      · intro token htoken
        obtain ⟨peer, hpeer, rfl⟩ := (hmethods token).1 htoken
        exact (sourced peer (mem_peers.1 hpeer).1).method
      · rw [document, Rule.bracedMethods, String.toList_ofList, Text.toList_joinCommas]
        rfl
    authorized_ne_nil := hfirst.authorized_ne_nil
    authorizedRoles := hfirst.authorizedRoles
    forbiddenRoles := hfirst.forbiddenRoles
    allowAnyone := by
      rw [document, List.any_eq_false]
      intro peer hpeer
      rw [(sourced peer (mem_peers.1 hpeer).1).allowAnyone]
      exact Bool.false_ne_true
    roleKey := show first.working.roleKey = first.roleKey from Rule.roleKey_of_mem_annotateAll h }

theorem isPolicy_merge (sourced : ∀ r ∈ rules, r.Sourced) :
    IsPolicy defaultHost (merge defaultHost rules).value := by
  have hdocument : ∀ place (h : place < (merge defaultHost rules).value.length),
      IsDocument defaultHost place (merge defaultHost rules).value[place] := by
    rw [value_merge_eq]
    intro place hplace
    rw [List.getElem_mapIdx]
    exact isDocument_document sourced place (mem_of_mem_distinctBy (List.getElem_mem _))
  have hhosts : (merge defaultHost rules).value.map entryKey =
      ((merge defaultHost rules).value.map fun r => (r.path, r.working.roleKey)).map
        (Prod.mk defaultHost) := by
    rw [List.map_map]
    refine List.map_congr_left fun r hr => ?_
    obtain ⟨place, hplace, rfl⟩ := List.getElem_of_mem hr
    rw [entryKey, (hdocument place hplace).host]
    rfl
  refine ⟨hdocument, List.Nodup.of_map (Prod.mk defaultHost) ?_⟩
  rw [← hhosts, keys_merge]
  exact nodup_distinct _

end Policy

/-! ## Source texts -/

structure SourceText where
  packageHint : String
  file : String
  text : String

def SourceText.routes (s : SourceText) : List Route := Source.scan s.packageHint s.file s.text

theorem isPolicy_of_ofRoutes {strict : Bool} {defaultHost : String} {routes : List Route}
    {report : Report} (found : ∀ route ∈ routes, ∃ s : SourceText, route ∈ s.routes)
    (h : (Report.ofRoutes strict defaultHost routes).value = .ok report) :
    Policy.IsPolicy defaultHost report.rules := by
  rw [Report.ofRoutes] at h
  cases hbatch : (parseAll strict routes).value with
  | error e => simp only [hbatch, reduceCtorEq] at h
  | ok batch =>
    simp only [hbatch, Except.ok.injEq] at h
    rw [← h]
    apply Policy.isPolicy_merge
    intro r hr
    obtain ⟨accepted, haccepted, rfl⟩ := List.mem_map.1 hr
    rw [parsed_of_parseAll hbatch] at haccepted
    obtain ⟨route, hroute, hparse⟩ := List.mem_filterMap.1 haccepted
    obtain ⟨s, hs⟩ := found route hroute
    obtain ⟨hrule, hauth, hforbidden⟩ := Source.found_of_mem_scan hs
    exact sourced_of_parse hrule hauth hforbidden (Text.eq_ok_of_toOption hparse)

/-- The rules that are made from source texts are a policy, whatever the texts hold. -/
theorem isPolicy_of_texts (strict : Bool) (defaultHost : String) (texts : List SourceText)
    {report : Report}
    (h : (Report.ofRoutes strict defaultHost (texts.flatMap SourceText.routes)).value =
      .ok report) :
    Policy.IsPolicy defaultHost report.rules := by
  refine isPolicy_of_ofRoutes (fun route hroute => ?_) h
  obtain ⟨s, -, hs⟩ := List.mem_flatMap.1 hroute
  exact ⟨s, hs⟩

/-- One path in two texts, and a brace that is not closed. -/
theorem isPolicy_of_two_texts :
    let texts : List SourceText :=
      [⟨"a", "a.go", "// @Router /x/\x7bid\x7d [get]\n// @AuthRoles  b ,\n"⟩,
        ⟨"a", "b.go",
          "// @Router /x/\x7bno\x7d [Put]\r\n// @AuthRoles b\n\n//@Router /\x7d\x7b [get]"⟩]
    let rules : List Rule :=
      [{ id := 1, host := "*", path := "/x/*", method := "\x7bGET,PUT\x7d"
         authorizedRoles := ["b"]
         working := { methods := ["GET", "PUT"], roleKey := "+b-"
                      fragments := ["x", "*"] } },
       { id := 2, host := "*", path := "/\x7d\x7b", method := "\x7bGET\x7d"
         authorizedRoles := ["*"]
         working := { methods := ["GET"], roleKey := "+*-", fragments := ["\x7d\x7b"] } }]
    (Report.ofRoutes true "*" (texts.flatMap SourceText.routes)).value = .ok ⟨3, 3, [], rules⟩ ∧
      Policy.IsPolicy "*" rules := by
  intro texts rules
  have hreport : (Report.ofRoutes true "*" (texts.flatMap SourceText.routes)).value =
      .ok ⟨3, 3, [], rules⟩ := by decide +kernel
  exact ⟨hreport, isPolicy_of_texts true "*" texts hreport⟩

end RoutePolicy
