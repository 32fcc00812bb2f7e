import RoutePolicy.Proofs.Distinct
import RoutePolicy.Proofs.Text.Pieces
import RoutePolicy.Rule.Basic

/-!
# Method texts and method lists

A method text always has tokens, and none of them holds a comma; of such tokens the braced form is a
faithful copy.
-/

namespace RoutePolicy.Rule

open Text (CommaFree)

theorem methodTokens_ne_nil (method : String) : methodTokens method ≠ [] := by
  intro h
  exact List.splitOn_ne_nil ',' _ (List.map_eq_nil_iff.1 h)

theorem commaFree_of_mem_methodTokens {method token : String} (h : token ∈ methodTokens method) :
    CommaFree token := by
  obtain ⟨piece, hpiece, rfl⟩ := List.mem_map.1 h
  rw [CommaFree, String.toList_ofList]
  exact Text.not_mem_of_mem_splitOn hpiece

@[simp] theorem dropClosingBrace_append (s : List Char) : dropClosingBrace (s ++ ['}']) = s := by
  rw [dropClosingBrace, if_pos List.getLast?_concat, List.dropLast_concat]

theorem methodTokens_bracedMethods {methods : List String} (hne : methods ≠ [])
    (free : ∀ m ∈ methods, CommaFree m) : methodTokens (bracedMethods methods) = methods := by
  rw [methodTokens, bracedMethods, String.toList_ofList, List.cons_append, dropOpeningBrace,
    dropClosingBrace_append]
  exact Text.splitCommas_joinCommas hne free

theorem methodTokens_of_plain {method : String} (plain : ∀ c ∈ method.toList, c ∉ ['{', '}', ',']) :
    methodTokens method = [method] := by
  have hopen : dropOpeningBrace method.toList = method.toList := by
    unfold dropOpeningBrace
    split
    · next s h => exact absurd (List.mem_cons_self) (plain '{' (h ▸ List.mem_cons_self))
    · rfl
  have hclose : dropClosingBrace method.toList = method.toList := by
    rw [dropClosingBrace, if_neg]
    intro h
    exact plain '}' (List.mem_of_getLast? h) (by decide)
  have hcut : ',' ∉ method.toList := fun h => plain ',' h (by decide)
  rw [methodTokens, hopen, hclose, List.splitOn_eq_singleton hcut, List.map_singleton,
    String.ofList_toList]

variable (r : Rule)

theorem tokens_ne_nil : r.tokens ≠ [] := methodTokens_ne_nil r.method

theorem commaFree_of_mem_tokens {token : String} (h : token ∈ r.tokens) : CommaFree token :=
  commaFree_of_mem_methodTokens h

/-- A rule that was given comma-free methods has them as its tokens. -/
theorem tokens_withMethods {methods : List String} (hne : methods ≠ [])
    (free : ∀ m ∈ methods, CommaFree m) : (r.withMethods methods).tokens = distinct methods := by
  apply methodTokens_bracedMethods
  · exact fun h => hne (distinct_eq_nil_iff.1 h)
  · exact fun m hm => free m (mem_distinct.1 hm)

/-! ## Loading and sealing -/

/-- A text in braces. What stands between them may hold braces, too. -/
def IsBraced (method : String) : Prop := ∃ inside, method.toList = '{' :: (inside ++ ['}'])

theorem isBraced_bracedMethods (methods : List String) : IsBraced (bracedMethods methods) :=
  ⟨(Text.joinCommas methods).toList, by rw [bracedMethods, String.toList_ofList]; rfl⟩

theorem sealMethods_loadMethods : r.loadMethods.sealMethods = r.withMethods r.tokens := rfl

/-- Tokens never hold commas, so the sealed text is read back as the tokens without repetitions, and
these have none left to remove. -/
theorem sealMethods_loadMethods_again :
    r.loadMethods.sealMethods.loadMethods.sealMethods = r.loadMethods.sealMethods := by
  have htokens : (r.withMethods r.tokens).tokens = distinct r.tokens :=
    r.tokens_withMethods r.tokens_ne_nil fun _ => r.commaFree_of_mem_tokens
  rw [sealMethods_loadMethods, sealMethods_loadMethods, htokens]
  simp only [withMethods, distinct_eq_self (nodup_distinct r.tokens)]

/-- Methods without commas survive being sealed and read again, but for repetitions. Whatever a
method text is, loading and sealing it gives a braced text that loading and sealing leave alone. -/
theorem tokens_sealMethods_and_again :
    (∀ r : Rule, r.working.methods ≠ [] → (∀ m ∈ r.working.methods, CommaFree m) →
      r.sealMethods.tokens = distinct r.working.methods) ∧
    ∀ r : Rule, IsBraced r.loadMethods.sealMethods.method ∧
      r.loadMethods.sealMethods.loadMethods.sealMethods = r.loadMethods.sealMethods := by
  constructor
  · intro r hne free
    exact r.tokens_withMethods hne free
  · intro r
    exact ⟨isBraced_bracedMethods (distinct r.tokens), r.sealMethods_loadMethods_again⟩

theorem tokens_sealMethods_of_repeated :
    let r : Rule := { working := { methods := ["GET", "\x7b\x7d", "get", "", "GET", "\x7b\x7d"] } }
    (r.working.methods ≠ [] ∧ ∀ m ∈ r.working.methods, CommaFree m) ∧
      r.sealMethods.tokens = ["GET", "\x7b\x7d", "get", ""] := by
  intro r
  have hne : r.working.methods ≠ [] := List.cons_ne_nil _ _
  have free : ∀ m ∈ r.working.methods, ',' ∉ m.toList := by decide +kernel
  have htokens := tokens_sealMethods_and_again.1 r hne free
  have hdistinct : distinct r.working.methods = ["GET", "\x7b\x7d", "get", ""] := by decide +kernel
  rw [hdistinct] at htokens
  exact ⟨⟨hne, free⟩, htokens⟩

example :
    let r : Rule := { method := "\x7b\x7bGET,,\x7d,GET,\x7b" }
    r.loadMethods.sealMethods.method = "\x7b\x7bGET,,\x7d,GET,\x7b\x7d" ∧
      r.loadMethods.sealMethods.working.methods = ["\x7bGET", "", "\x7d", "GET", "\x7b"] := by
  decide +kernel

end RoutePolicy.Rule
