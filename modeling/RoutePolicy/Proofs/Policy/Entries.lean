import RoutePolicy.Proofs.Policy.Document
import RoutePolicy.Proofs.Rule.Faults

/-!
# Policies by the entries of their objects

A policy whose objects are described by their entries is read as the rules that they describe: the
order of the entries, the blanks among them, the spelling of the keys and what stands under other
keys have no say. Conversely the pieces of a list are settled by its text (`spellsRule_of_lists`), so
that a policy is refused for any object that lacks a required member or has a member twice.
-/

namespace RoutePolicy.Policy

open Json
open Rule (SpellsRule IsObject Describes Entry Member keys)

variable {text : String} {rules : List Rule} {pieces : List (List Char)}

/-- A list of the given pieces stands at the start of the text, behind blanks. -/
def Lists (text : String) (pieces : List (List Char)) : Prop :=
  ∃ blanks list rest, Blanks blanks ∧ IsContainer .list pieces list ∧
    text.toList = blanks ++ (list ++ rest)

theorem ofJson_of_lists (h : Lists text pieces) (hrules : List.Forall₂ SpellsRule rules pieces) :
    ofJson text = .ok rules := by
  obtain ⟨blanks, list, rest, hblanks, hlist, htext⟩ := h
  exact ofJson_eq_ok_iff.2 ⟨blanks, list, rest, hblanks, spellsList_iff.2 ⟨pieces, hrules, hlist⟩,
    htext⟩

theorem exists_spellsRule (h : List.Forall₂ SpellsRule rules pieces) :
    ∀ piece ∈ pieces, ∃ r, SpellsRule r piece := by
  induction h with
  | nil => exact fun _ h => absurd h List.not_mem_nil
  | cons hpiece _ ih => exact List.forall_mem_cons.2 ⟨⟨_, hpiece⟩, ih⟩

/-- The pieces of a list that is read are what the rules are read from. -/
theorem spellsRule_of_lists (h : Lists text pieces)
    (hpieces : ∀ piece ∈ pieces, Wellformed .value piece) (hread : ofJson text = .ok rules) :
    List.Forall₂ SpellsRule rules pieces := by
  have hclosed : ∀ {parts : List (List Char)} {list rest : List Char},
      IsContainer .list parts list → Ended list rest := by
    intro parts list rest hlist
    obtain ⟨_, _, _, _, rfl⟩ := hlist
    exact ended_cons (by decide)
  obtain ⟨blanks, list, rest, hblanks, hlist, htext⟩ := h
  obtain ⟨blanks', list', rest', hblanks', hspells, htext'⟩ := ofJson_eq_ok_iff.1 hread
  have hwellformed' := Rule.reads_read.readList.wellformed hspells
  obtain ⟨parts, hparts, hlist'⟩ := spellsList_iff.1 hspells
  have hwellformed : Wellformed .value list :=
    hlist.wellformed fun piece hpiece => (hpieces piece hpiece).listPart
  obtain ⟨rfl, -⟩ := hwellformed.value_inj hwellformed' (hclosed hlist) (hclosed hlist') hblanks
    hblanks' (htext.symm.trans htext')
  -- Both lists are the same text; it remains that a text is cut into pieces in one way only.
  have hextents : ∀ part ∈ parts, HasExtent .list part := by
    intro part hpart
    obtain ⟨_, hspells⟩ := exists_spellsRule hparts part hpart
    exact hspells.wellformed.hasExtent
  obtain rfl := hlist.unique hlist' (fun piece hpiece => (hpieces piece hpiece).hasExtent) hextents
    (rfl : list ++ rest = list ++ rest)
  exact hparts

theorem exists_json_of_error {e : Failure} (h : ofJson text = .error e) :
    ∃ detail, e = .json detail := by
  unfold ofJson at h
  split at h
  · cases h
  · exact ⟨_, (Except.error.inj h).symm⟩

/-- Among rules in any other spelling, an object is read as the rule that its entries describe, in
whatever order they come. An object that lacks a required member or has a member twice makes the
whole policy fail. -/
theorem ofJson_by_entries (h : Lists text pieces) :
    (∀ rules : List Rule,
      List.Forall₂ (fun r piece => SpellsRule r piece ∨
        ∃ entries, IsObject entries piece ∧ Describes r entries) rules pieces →
      ofJson text = .ok (rules.map Rule.published)) ∧
    ∀ (object : List Char) (entries : List Entry), object ∈ pieces →
      (∀ piece ∈ pieces, Wellformed .value piece) → IsObject entries object →
      (∀ e ∈ entries, Wellformed .value e.value) →
      (∃ m : Member, m ∈ Member.required ∧ m.name ∉ keys entries ∨
        1 < (keys entries).count m.name) →
      ∃ detail, ofJson text = .error (.json detail) := by
  constructor
  · intro rules hrules
    refine ofJson_of_lists h (List.forall₂_map_left_iff.2 (hrules.imp ?_))
    intro r piece hpiece
    rcases hpiece with hspells | ⟨entries, hobject, hdescribes⟩
    · rw [published_of_spellsRule hspells]
      exact hspells
    · exact hdescribes.spellsRule hobject
  · intro object entries hmem hpieces hobject hvalues hdefect
    cases hread : ofJson text with
    | error e =>
      obtain ⟨detail, rfl⟩ := exists_json_of_error hread
      exact ⟨detail, rfl⟩
    | ok rules =>
      obtain ⟨r, hr⟩ := exists_spellsRule (spellsRule_of_lists h hpieces hread) object hmem
      obtain ⟨hrequired, honce⟩ := hr.keys_of_isObject hobject hvalues
      obtain ⟨m, ⟨hm, hmissing⟩ | htwice⟩ := hdefect
      · exact absurd (hrequired m hm) hmissing
      · exact absurd (honce m) (Nat.not_le.2 htwice)

/-- An object that has an unknown key and its members out of order, and one that has a key twice. -/
theorem ofJson_by_entries_reordered :
    ofJson (" [\x7b\n  \"note\": [null],\n  \"method\": \"\\u0047ET\",\n  \"path\": \"/a\",\n" ++
        "  \"id\": 7,\n  \"host\": \"*\"\n\x7d]") =
      .ok [{ id := 7, host := "*", path := "/a", method := "GET" }] ∧
    ∃ detail, ofJson "[\x7b\"host\":\"*\",\"host\":\"/\"\x7d]" = .error (.json detail) := by
  let rule : Rule := { id := 7, host := "*", path := "/a", method := "GET" }
  let escaped : List Char := "\"\\u0047ET\"".toList
  let entries : List Entry :=
    [⟨"note".toList, "[null]".toList⟩, ⟨Member.method.name, escaped⟩,
      ⟨Member.path.name, encode "/a".toList⟩, ⟨Member.id.name, ['7']⟩,
      ⟨Member.host.name, encode "*".toList⟩]
  let twice : List Entry :=
    [⟨Member.host.name, encode "*".toList⟩, ⟨Member.host.name, encode "/".toList⟩]
  have hnull : Wellformed .value "[null]".toList :=
    .container (b := .list) (.parts (.item Blanks.nil (.scalar .null)) (.last Blanks.nil))
  have hid : SpellsInt64 7 ['7'] := by
    have hwritten := spellsInt64_ofInt 7
    rwa [show Decimal.ofInt (Int64.toInt 7) = ['7'] by decide +kernel] at hwritten
  have hmethod : SpellsString "GET" escaped := by
    have hescape : SpellsEscape 'G' "u0047".toList :=
      .code (n := 0x47) (by decide) (by decide) (by decide)
    exact ⟨"\\u0047ET".toList, .escape hescape (spellsText_encodeChar 'E'
      (spellsText_encodeChar 'T' .nil)), by decide⟩
  have hnote : ∀ m : Member, m.name ≠ "note".toList := by
    intro m
    cases m <;> decide
  have htells : Rule.Tells rule entries := by
    refine .cons_other ?_ hnote hnull
    refine .cons (m := .method) ?_ (by decide) hmethod
    refine .cons (m := .path) ?_ (by decide) (spellsQuoted_encode _)
    refine .cons (m := .id) ?_ (by decide) hid
    exact .cons (m := .host) (.nil rule) (by decide) (spellsQuoted_encode _)
  have hdescribes : Describes rule entries :=
    { htells with
      required := by decide
      authorizedRoles := fun _ => rfl
      forbiddenRoles := fun _ => rfl
      allowAnyone := fun _ => rfl }
  have hobject := Rule.isObject_object (.indented 0) entries
  have htwice := Rule.isObject_object .compact twice
  have hvalues : ∀ e ∈ twice, Wellformed .value e.value := by
    refine List.forall_mem_cons.2 ⟨?_, List.forall_mem_cons.2 ⟨?_, fun _ h => by cases h⟩⟩
    · exact .scalar (.text (spellsQuoted_encode _).isQuoted)
    · exact .scalar (.text (spellsQuoted_encode _).isQuoted)
  constructor
  · refine (ofJson_by_entries ⟨[' '], _, [], Blanks.nil.cons rfl,
      isContainer_container .compact .list [_], ?_⟩).1 [rule]
      (.cons (.inr ⟨entries, hobject, hdescribes⟩) .nil)
    decide +kernel
  · refine (ofJson_by_entries ⟨[], _, [], Blanks.nil, isContainer_container .compact .list [_], ?_⟩).2
      _ twice List.mem_cons_self ?_ htwice hvalues ⟨.host, .inr (by decide)⟩
    · decide +kernel
    · exact List.forall_mem_singleton.2 (htwice.wellformed hvalues)

end RoutePolicy.Policy
