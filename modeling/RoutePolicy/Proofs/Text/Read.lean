import RoutePolicy.Text.Read

/-!
# What a reading step delivers

A step is described by its value and the text it leaves; that the text is shorter is of no interest
once the reader runs. Each way to build a step from others has its law.
-/

namespace RoutePolicy.Text

variable {α β ε : Type} {s rest : List Char} {a : α}

/-- The step succeeds with the value `a` and leaves `rest`. -/
def Delivers (result : Except ε (Read α s)) (a : α) (rest : List Char) : Prop :=
  ∃ shorter, result = .ok ⟨a, rest, shorter⟩

theorem eq_ok_of_toOption {result : Except ε α} (h : result.toOption = some a) :
    result = .ok a := by
  cases result with
  | error e => cases h
  | ok b => exact congrArg Except.ok (Option.some.inj h)

theorem delivers_ok {r : Read α s} :
    Delivers (.ok r : Except ε (Read α s)) a rest ↔ r.value = a ∧ r.rest = rest := by
  constructor
  · rintro ⟨_, h⟩
    obtain rfl := Except.ok.inj h
    exact ⟨rfl, rfl⟩
  · rintro ⟨rfl, rfl⟩
    exact ⟨r.shorter, rfl⟩

theorem not_delivers_error {f : ε} : ¬ Delivers (.error f : Except ε (Read α s)) a rest := by
  rintro ⟨_, h⟩
  cases h

theorem delivers_of_eq {result : Except ε (Read α s)} {r : Read α s} (h : result = .ok r) :
    Delivers result r.value r.rest :=
  ⟨r.shorter, h⟩

theorem delivers_map {result : Except ε (Read β s)} {f : β → α} :
    Delivers (result.map (·.map f)) a rest ↔ ∃ b, Delivers result b rest ∧ f b = a := by
  cases result with
  | error e =>
    refine iff_of_false not_delivers_error ?_
    rintro ⟨_, h, _⟩
    exact not_delivers_error h
  | ok r =>
    simp only [Except.map, delivers_ok, Read.map]
    constructor
    · rintro ⟨rfl, rfl⟩
      exact ⟨r.value, ⟨rfl, rfl⟩, rfl⟩
    · rintro ⟨_, ⟨rfl, rfl⟩, rfl⟩
      exact ⟨rfl, rfl⟩

theorem delivers_cons {c : Char} {result : Except ε (Read α s)} :
    Delivers (result.map (Read.cons c)) a rest ↔ Delivers result a rest := by
  cases result with
  | error e => exact iff_of_false not_delivers_error not_delivers_error
  | ok r => simp only [Except.map, delivers_ok, Read.cons]

theorem delivers_map_unit_cons {c : Char} {result : Except ε (Read β s)} :
    Delivers (result.map fun r => (r.map fun _ => ()).cons c) () rest ↔
      ∃ b, Delivers result b rest := by
  cases result with
  | error e =>
    refine iff_of_false not_delivers_error ?_
    rintro ⟨_, h⟩
    exact not_delivers_error h
  | ok r =>
    simp only [Except.map, delivers_ok, Read.cons, Read.map, exists_and_right, exists_eq', true_and]

theorem delivers_after {first : Read β s} {result : Except ε (Read α first.rest)} :
    Delivers (result.map first.after) a rest ↔ Delivers result a rest := by
  cases result with
  | error e => exact iff_of_false not_delivers_error not_delivers_error
  | ok r => simp only [Except.map, delivers_ok, Read.after]

theorem delivers_certify {result : Except ε (α × List Char)}
    {shorter : ∀ value rest, result = .ok (value, rest) → rest.length < s.length} :
    Delivers (Read.certify result shorter) a rest ↔ result = .ok (a, rest) := by
  cases result with
  | error e => exact iff_of_false not_delivers_error (by simp)
  | ok r => simp only [Read.certify, delivers_ok, Except.ok.injEq, Prod.ext_iff]

theorem delivers_certifyRest {result : Except ε (List Char)}
    {shorter : ∀ rest, result = .ok rest → rest.length < s.length} :
    Delivers (Read.certifyRest result shorter) () rest ↔ result = .ok rest := by
  cases result with
  | error e => exact iff_of_false not_delivers_error (by simp)
  | ok r => simp only [Read.certifyRest, delivers_ok, Except.ok.injEq, true_and]

end RoutePolicy.Text
