import Mathlib.Data.Set.Operations
import ObjectStore.Member.Basic

/-!
# Written forms of member identifiers

A text is cut at its last separator. Without one it is a name; with one it is
a qualifier, which may hold further separators, and a name, which holds none.
A qualifier without a character counts as absent, so that a separator at the
beginning of a text is lost if it is the only one.

The identifiers that come out of a text are the canonical ones: the name holds
no separator, and the qualifier is not empty. These are also the identifiers
that their written form determines.

## Main results

* `MemberId.parse_qualified`: a qualifier and a name are read apart.
* `MemberId.parse_eq_iff`: the texts that are read as an identifier.
* `MemberId.rendering_exact`: which identifiers survive being written and read,
  and that what was read from a text always does.
-/

namespace ObjectStore

namespace MemberId

/-! ## The last separator -/

theorem splitLast_eq_some_iff {c : Char} {text before after : List Char} :
    splitLast c text = some (before, after) ↔ text = before ++ c :: after ∧ c ∉ after := by
  refine ⟨fun h => ?_, fun ⟨hText, hAfter⟩ => hText ▸ splitLast_append hAfter⟩
  induction text generalizing before with
  | nil => cases h
  | cons head rest ih =>
      simp only [splitLast] at h
      split at h
      · rename_i front back hRest
        cases h
        obtain ⟨hText, hAfter⟩ := ih hRest
        exact ⟨congrArg (head :: ·) hText, hAfter⟩
      · rename_i hRest
        split at h
        · rename_i hHead
          subst hHead
          cases h
          exact ⟨rfl, splitLast_eq_none.1 hRest⟩
        · cases h

theorem toList_qualified (qualifier name : String) :
    (qualifier ++ "#" ++ name).toList = qualifier.toList ++ separator :: name.toList := by
  simp [separator]

/-- A text is a name without separator, or a qualifier in front of its last
separator and a name behind it. -/
theorem plain_or_qualified (text : String) :
    separator ∉ text.toList ∨
      ∃ qualifier name : String, separator ∉ name.toList ∧ text = qualifier ++ "#" ++ name := by
  cases hSplit : splitLast separator text.toList with
  | none => exact Or.inl (splitLast_eq_none.1 hSplit)
  | some parts =>
      obtain ⟨before, after⟩ := parts
      obtain ⟨hText, hAfter⟩ := splitLast_eq_some_iff.1 hSplit
      refine Or.inr ⟨.ofList before, .ofList after, by rwa [String.toList_ofList], ?_⟩
      rw [← String.toList_inj, toList_qualified, String.toList_ofList, String.toList_ofList, hText]

theorem parse_plain {text : String} (h : separator ∉ text.toList) :
    parse text = ⟨none, text⟩ := by
  rw [parse, splitLast_eq_none.2 h]

theorem parse_qualified {qualifier name : String} (h : separator ∉ name.toList) :
    parse (qualifier ++ "#" ++ name) =
      ⟨if qualifier = "" then none else some qualifier, name⟩ := by
  rw [parse, toList_qualified, splitLast_append h]
  by_cases hEmpty : qualifier = ""
  · subst hEmpty
    rw [if_pos rfl]
    show (⟨none, String.ofList name.toList⟩ : MemberId) = _
    rw [String.ofList_toList]
  · obtain ⟨head, rest, hList⟩ :=
      List.exists_cons_of_ne_nil (mt String.toList_eq_nil_iff.1 hEmpty)
    rw [if_neg hEmpty, hList]
    show (⟨some (String.ofList (head :: rest)), String.ofList name.toList⟩ : MemberId) = _
    rw [← hList, String.ofList_toList, String.ofList_toList]

/-- A separator that is the first character and the only one is lost. -/
theorem parse_leading {name : String} (h : separator ∉ name.toList) :
    parse ("#" ++ name) = ⟨none, name⟩ :=
  @parse_qualified "" name h

/-! ## Canonical identifiers -/

/-- The written form tells qualifier and name apart: the name holds no separator,
and the qualifier is absent or has a character. -/
structure Canonical (id : MemberId) : Prop where
  name : separator ∉ id.name.toList
  qualifier : id.qualifier ≠ some ""

theorem canonical_parse (text : String) : (parse text).Canonical := by
  rcases plain_or_qualified text with hPlain | ⟨qualifier, name, hName, rfl⟩
  · rw [parse_plain hPlain]
    exact ⟨hPlain, nofun⟩
  · rw [parse_qualified hName]
    refine ⟨hName, ?_⟩
    by_cases hEmpty : qualifier = ""
    · rw [if_pos hEmpty]
      nofun
    · rw [if_neg hEmpty]
      exact mt Option.some.inj hEmpty

theorem Canonical.parse_render {id : MemberId} (h : id.Canonical) : parse id.render = id := by
  obtain ⟨qualifier, name⟩ := id
  cases qualifier with
  | none => exact parse_plain h.name
  | some qualifier =>
      have hEmpty : qualifier ≠ "" := mt (congrArg some) h.qualifier
      rw [render, parse_qualified h.name, if_neg hEmpty]

theorem parse_render_iff {id : MemberId} : parse id.render = id ↔ id.Canonical :=
  ⟨fun h => h ▸ canonical_parse id.render, Canonical.parse_render⟩

/-- A canonical identifier is read from its written form, and from no other text
but a separator in front of a name. -/
theorem parse_eq_iff {text : String} {id : MemberId} :
    parse text = id ↔
      id.Canonical ∧ (text = id.render ∨ id.qualifier = none ∧ text = "#" ++ id.name) := by
  constructor
  · rintro rfl
    refine ⟨canonical_parse text, ?_⟩
    rcases plain_or_qualified text with hPlain | ⟨qualifier, name, hName, rfl⟩
    · rw [parse_plain hPlain]
      exact Or.inl rfl
    · rw [parse_qualified hName]
      by_cases hEmpty : qualifier = ""
      · subst hEmpty
        exact Or.inr ⟨rfl, rfl⟩
      · rw [if_neg hEmpty]
        exact Or.inl rfl
  · rintro ⟨hCanonical, rfl | ⟨hNone, rfl⟩⟩
    · exact hCanonical.parse_render
    · obtain ⟨qualifier, name⟩ := id
      subst hNone
      exact parse_leading hCanonical.name

/-! ## Exactness -/

/-- What is read from a text is read again from its written form. The identifiers
that are read from their written form are the canonical ones, and of these no two
are written alike. A text that is read as an identifier is its written form, or
the name of an unqualified one behind a separator. -/
theorem rendering_exact :
    (∀ text, parse (parse text).render = parse text) ∧
    (∀ id : MemberId, parse id.render = id ↔ id.Canonical) ∧
    Set.InjOn render {id | id.Canonical} ∧
    (∀ text id, parse text = id ↔
      id.Canonical ∧ (text = id.render ∨ id.qualifier = none ∧ text = "#" ++ id.name)) := by
  refine ⟨fun text => (canonical_parse text).parse_render, fun id => parse_render_iff,
    fun a hA b hB hRender => ?_, fun text id => parse_eq_iff⟩
  calc a = parse a.render := (Canonical.parse_render hA).symm
    _ = parse b.render := congrArg parse hRender
    _ = b := Canonical.parse_render hB

/-- Of doubled separators the first one belongs to the qualifier. -/
example : parse "Order##total" = ⟨some "Order#", "total"⟩ := by decide

/-- An empty qualifier is lost on the way. -/
example : parse (render ⟨some "", "total"⟩) = ⟨none, "total"⟩ := by decide

end MemberId

end ObjectStore
