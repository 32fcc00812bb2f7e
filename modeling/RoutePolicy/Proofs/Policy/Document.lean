import RoutePolicy.Policy
import RoutePolicy.Proofs.Rule.Entries

/-!
# Reading policy documents

A text is a policy if a list of rules is spelled at its start, behind blanks: what follows the list
is never looked at (`ofJson_eq_ok_iff`). A written policy is read back without the working fields of
its rules, and rules that were read have none, so that writing and reading them again changes
nothing.
-/

namespace RoutePolicy.Policy

open Json
open Rule (SpellsRule)

/-- The texts that are accepted, and the rules that they are accepted as. -/
theorem ofJson_eq_ok_iff {text : String} {rules : List Rule} :
    ofJson text = .ok rules ↔
      ∃ blanks list rest, Blanks blanks ∧ SpellsList SpellsRule rules list ∧
        text.toList = blanks ++ (list ++ rest) := by
  have hreads := Rule.reads_read.readList
  constructor
  · intro h
    unfold ofJson at h
    split at h
    · next r hr =>
      obtain rfl := Except.ok.inj h
      obtain ⟨blanks, list, hblanks, hlist, htext⟩ :=
        hreads.delivers_iff.1 (Text.delivers_of_eq hr)
      exact ⟨blanks, list, r.rest, hblanks, hlist, htext⟩
    · cases h
  · rintro ⟨blanks, list, rest, hblanks, hlist, htext⟩
    obtain ⟨_, hread⟩ := hreads.delivers_iff.2 ⟨blanks, list, hblanks, hlist, htext⟩
    rw [ofJson, Policy.read, hread]

/-! ## Written policies -/

/-- The list that a policy document is, without the newline at its end. -/
theorem exists_spellsList_toJson (rules : List Rule) :
    ∃ list, SpellsList SpellsRule (rules.map Rule.published) list ∧
      (toJson rules).toList = list ++ ['\n'] := by
  refine ⟨_, spellsList_list (.indented 0) (Rule.spellsRule_write (.indented 1)) rules, ?_⟩
  rw [toJson, String.toList_ofList, write]

/-- A written policy is read back, whatever follows it. -/
theorem ofJson_toJson_append (rules : List Rule) (suffix : String) :
    ofJson (toJson rules ++ suffix) = .ok (rules.map Rule.published) := by
  obtain ⟨list, hlist, hwritten⟩ := exists_spellsList_toJson rules
  refine ofJson_eq_ok_iff.2 ⟨[], list, '\n' :: suffix.toList, Blanks.nil, hlist, ?_⟩
  rw [String.toList_append, hwritten, List.append_assoc]
  rfl

theorem ofJson_toJson (rules : List Rule) :
    ofJson (toJson rules) = .ok (rules.map Rule.published) := by
  have happend := ofJson_toJson_append rules ""
  rwa [String.append_empty] at happend

/-! ## Rules that were read -/

theorem published_of_spellsRule {r : Rule} {piece : List Char} (h : SpellsRule r piece) :
    r.published = r := by
  have hrule : ∀ {d : Rule.Draft}, d.rule = .ok r → r.published = r := by
    intro d h
    unfold Rule.Draft.rule at h
    split at h
    · cases h
    · cases h
    · cases h
    · cases h
    · obtain rfl := Except.ok.inj h
      rfl
  cases h with
  | object _ h => exact hrule h
  | list _ h => exact hrule h

theorem map_published_of_spellsItems {isFirst : Bool} {rules : List Rule} {content : List Char}
    (h : SpellsItems SpellsRule isFirst rules content) : rules.map Rule.published = rules := by
  induction h with
  | done => rfl
  | item _ hpiece _ ih => rw [List.map_cons, published_of_spellsRule hpiece, ih]

theorem map_published_of_ofJson {text : String} {rules : List Rule}
    (h : ofJson text = .ok rules) : rules.map Rule.published = rules := by
  obtain ⟨_, _, _, _, ⟨content, hcontent, _⟩, _⟩ := ofJson_eq_ok_iff.1 h
  exact map_published_of_spellsItems hcontent

/-- Writing and reading are inverse to each other, but for the working fields. -/
theorem ofJson_toJson_and_again :
    (∀ rules : List Rule, ofJson (toJson rules) = .ok (rules.map Rule.published)) ∧
      ∀ (text : String) (rules : List Rule), ofJson text = .ok rules →
        ofJson (toJson rules) = .ok rules ∧
          ∀ again, ofJson (toJson rules) = .ok again → toJson again = toJson rules := by
  refine ⟨ofJson_toJson, fun text rules h => ?_⟩
  have hagain : ofJson (toJson rules) = .ok rules := by
    rw [ofJson_toJson, map_published_of_ofJson h]
  refine ⟨hagain, fun again hread => ?_⟩
  rw [hagain] at hread
  rw [Except.ok.inj hread]

/-- A rule with its members in another order, some of them left out and one of no meaning. -/
theorem ofJson_toJson_of_reordered :
    ofJson (toJson [{ id := 7, host := "*", path := "/a", method := "GET" }]) =
      .ok [{ id := 7, host := "*", path := "/a", method := "GET" }] := by
  have hread : ofJson (" [\x7b\"method\":\"\\u0047ET\",\"note\":[null,2e3],\"id\":7," ++
      "\"path\":\"/a\",\"host\":\"*\"\x7d]") =
      .ok [{ id := 7, host := "*", path := "/a", method := "GET" }] :=
    Text.eq_ok_of_toOption (by decide +kernel)
  exact (ofJson_toJson_and_again.2 _ _ hread).1

/-! ## What follows the list -/

/-- The text is one JSON list with blanks around it. -/
def WholeList (text : String) : Prop :=
  ∃ before content after, Blanks before ∧ Wellformed (.content .list) content ∧ Blanks after ∧
    text.toList = before ++ '[' :: (content ++ after)

theorem wholeList_iff_of_eq {text : String} {before content rest : List Char}
    (hbefore : Blanks before) (hcontent : Wellformed (.content .list) content)
    (htext : text.toList = before ++ '[' :: (content ++ rest)) : WholeList text ↔ Blanks rest := by
  constructor
  · rintro ⟨before', content', after, hbefore', hcontent', hafter, htext'⟩
    have hfinds : Finds text.toList '[' (content ++ rest) :=
      finds_iff.2 ⟨before, hbefore, by decide, htext⟩
    have hfinds' : Finds text.toList '[' (content' ++ after) :=
      finds_iff.2 ⟨before', hbefore', by decide, htext'⟩
    have hrest := (hcontent.content_append_inj hcontent' (hfinds.unique hfinds').2).2
    rw [hrest]
    exact hafter
  · intro hrest
    exact ⟨before, content, rest, hbefore, hcontent, hrest, htext⟩

theorem wholeList_toJson_append (rules : List Rule) (suffix : String) :
    WholeList (toJson rules ++ suffix) ↔ Blanks suffix.toList := by
  obtain ⟨list, ⟨content, hcontent, rfl⟩, hwritten⟩ := exists_spellsList_toJson rules
  have htext : (toJson rules ++ suffix).toList = [] ++ '[' :: (content ++ '\n' :: suffix.toList) := by
    rw [String.toList_append, hwritten, List.append_assoc]
    rfl
  rw [wholeList_iff_of_eq Blanks.nil (hcontent.wellformed Rule.reads_read.wellformed) htext]
  constructor
  · exact fun h c hc => h c (List.mem_cons_of_mem _ hc)
  · exact fun h => h.cons rfl

/-- A text is accepted for the list at its start. What follows has no say, so the text is a whole
list only where nothing but blanks follows; a written policy may be followed by anything. -/
theorem ofJson_looks_at_no_rest (t : FileTree) (path text suffix : String) (rules : List Rule) :
    (ofJson text = .ok rules →
      ∃ before content rest, Blanks before ∧ Wellformed (.content .list) content ∧
        text.toList = before ++ '[' :: (content ++ rest) ∧ (WholeList text ↔ Blanks rest) ∧
        ∀ other, ofJson (String.ofList (before ++ '[' :: (content ++ other))) = .ok rules) ∧
    (ofJson (toJson rules ++ suffix) = .ok (rules.map Rule.published) ∧
      (WholeList (toJson rules ++ suffix) ↔ Blanks suffix.toList)) ∧
    (t.readText path = .ok (toJson rules ++ suffix) →
      load t path = .ok (rules.map Rule.published)) := by
  refine ⟨?_, ⟨ofJson_toJson_append rules suffix, wholeList_toJson_append rules suffix⟩, ?_⟩
  · intro h
    obtain ⟨before, _, rest, hbefore, ⟨content, hcontent, rfl⟩, htext⟩ := ofJson_eq_ok_iff.1 h
    have hwellformed := hcontent.wellformed Rule.reads_read.wellformed
    refine ⟨before, content, rest, hbefore, hwellformed, htext,
      wholeList_iff_of_eq hbefore hwellformed htext, fun other => ?_⟩
    refine ofJson_eq_ok_iff.2 ⟨before, '[' :: content, other, hbefore, ⟨content, hcontent, rfl⟩, ?_⟩
    rw [String.toList_ofList]
    rfl
  · intro h
    rw [load, h]
    exact ofJson_toJson_append rules suffix

theorem load_two_lists :
    (∃ before content rest, Blanks before ∧ Wellformed (.content .list) content ∧
      "[]\n[]".toList = before ++ '[' :: (content ++ rest) ∧ (WholeList "[]\n[]" ↔ Blanks rest) ∧
      ∀ other, ofJson (String.ofList (before ++ '[' :: (content ++ other))) = .ok []) ∧
    load ((FileTree.mk [] trivial).writeFile "p.json" "[]\n[]".toUTF8).tree "p.json" = .ok [] := by
  have hall := ofJson_looks_at_no_rest
    ((FileTree.mk [] trivial).writeFile "p.json" "[]\n[]".toUTF8).tree "p.json" "[]\n[]" "[]" []
  refine ⟨?_, ?_⟩
  · exact hall.1 (Text.eq_ok_of_toOption (by decide +kernel))
  · exact hall.2.2 (Text.eq_ok_of_toOption (by decide +kernel))

/-- Not every text that is accepted is one whole list. -/
theorem not_wholeList_of_ofJson :
    ¬ ∀ (text : String) (rules : List Rule), ofJson text = .ok rules → WholeList text := by
  intro h
  have hblanks := (wholeList_toJson_append [] "[]").1 (h _ _ (ofJson_toJson_append [] "[]"))
  exact absurd (hblanks '[' (by decide)) (by decide)

end RoutePolicy.Policy
