import ObjectStore.Json.Basic
import ObjectStore.Session.Check
import ObjectStore.Suggestion

/-!
# Reports

What a command has found is reported in lines for people or in JSON for
programs. A report says the same in both forms.
-/

namespace ObjectStore

namespace Report

/-! ## Lines -/

/-- Lines, each with its line break. -/
def lines (ls : List String) : String := String.join (ls.map (· ++ "\n"))

/-- Texts with commas between them. -/
def commas (texts : List String) : String := String.intercalate ", " texts

/-- A text with blanks behind it up to a width. -/
def padRight (width : Nat) (text : String) : String :=
  text ++ String.ofList (List.replicate (width - text.length) ' ')

/-- An object identifier in JSON. -/
def idJson (id : ObjectId) : Json := .number id.value.toNat

/-- A list in JSON. -/
def listJson {α : Type} (f : α → Json) (items : List α) : Json := .array (items.map f)

/-! ## Status -/

/-- The status of the store at a path. -/
def status (path : String) (s : Session.Status) : String :=
  lines
    ["Lodestore Status", "================", "Database: " ++ Quoted.quote path, "",
      s!"Entities:       {s.entities}",
      s!"Types:          {s.types}",
      s!"Next object id: {s.next.toNat}",
      "Roots:          " ++ commas (s.roots.map toString)]

/-- The status of the store at a path, in JSON. -/
def statusJson (path : String) (s : Session.Status) : Json :=
  .object
    [("database", .text path), ("entity_count", .number s.entities),
      ("type_count", .number s.types), ("next_object_id", .number s.next.toNat),
      ("roots", listJson idJson s.roots)]

/-! ## Types -/

/-- One line for a member. -/
def memberLine (m : Member) : String :=
  let offset := (m.offset.map fun offset => toString offset.toNat).getD "-"
  "  @" ++ padRight 6 offset ++ " " ++ m.id.render ++ " : " ++ m.typeName

/-- The lines for a type. -/
def typeLines (d : Definition) : List String :=
  s!"{d.id} {d.name} ({d.minLength.toNat}..={d.maxLength.toNat} bytes)" ::
    d.members.map memberLine

/-- The types of a dictionary. -/
def types (d : Dictionary) : String :=
  if d.isEmpty then lines ["No types stored."] else lines (d.definitions.flatMap typeLines)

/-- A member in JSON. -/
def memberJson (m : Member) : Json :=
  .object
    [("identifier", .text m.id.render), ("type_name", .text m.typeName),
      ("offset", .optional (fun offset => .number offset.toNat) m.offset)]

/-- A type in JSON. -/
def typeJson (d : Definition) : Json :=
  .object
    [("type_id", .number d.id.value.toNat), ("type_name", .text d.name),
      ("minimum_length", .number d.minLength.toNat),
      ("maximum_length", .number d.maxLength.toNat),
      ("members", listJson memberJson d.members)]

/-- The types of a dictionary, in JSON. -/
def typesJson (d : Dictionary) : Json := listJson typeJson d.definitions

/-! ## Checks -/

/-- What a check has found. -/
def check (r : CheckReport) : String :=
  lines
    (["Lodestore Check", "===============",
        s!"Entities:    {r.entities}",
        s!"Reachable:   {r.reachable}",
        s!"Unreachable: {r.unreachable.length}"] ++
      r.invalid.map (fun found => s!"  invalid {found.1}: {found.2.message}") ++
      r.dangling.map (fun found => s!"  dangling {found.source} -> {found.target}") ++
      r.missingRoots.map fun root => s!"  missing root {root}")

/-- What a check has found, in JSON. -/
def checkJson (r : CheckReport) : Json :=
  .object
    [("entity_count", .number r.entities), ("reachable", .number r.reachable),
      ("unreachable", listJson idJson r.unreachable),
      ("invalid",
        listJson
          (fun found =>
            .object [("object_id", idJson found.1), ("error", .text found.2.message)])
          r.invalid),
      ("dangling",
        listJson
          (fun found => .object [("from", idJson found.source), ("to", idJson found.target)])
          r.dangling),
      ("missing_roots", listJson idJson r.missingRoots)]

/-! ## Suggestions -/

/-- The word for the basis of a match. -/
def basisWord : Basis → String
  | .explicit => "explicit"
  | .deleted => "deleted"
  | .exact => "exact"
  | .similar _ => "similar"

/-- The score of a match by similarity. -/
def basisScore : Basis → Option Float
  | .similar score => some score
  | _ => none

/-- One line for a match. -/
def matchLine (m : Match) : String :=
  let target := (m.target.map (·.id.render)).getD "<deleted>"
  let score := (basisScore m.basis).map fun score => " " ++ Decimal.fixed 3 score
  "  " ++ m.source.id.render ++ " -> " ++ target ++ " [" ++ basisWord m.basis ++
    score.getD "" ++ "]"

/-- The lines for a suggestion. -/
def suggestionLines (s : Suggestion) : List String :=
  let arrow := (s.target.map (" -> " ++ ·)).getD ""
  (s.source ++ arrow ++ " (" ++ s.resolution.word ++ ")") ::
    (s.matching.matched.map matchLine ++
      s.matching.unmatched.map (fun m => "  " ++ m.id.render ++ " -> ? [unmatched]") ++
      s.matching.added.map fun m => "  ? -> " ++ m.id.render ++ " [new]")

/-- The suggestions for the types of a dictionary. -/
def suggestions (ss : List Suggestion) : String :=
  if ss.isEmpty then lines ["No legacy types to map."] else lines (ss.flatMap suggestionLines)

/-- A match in JSON. -/
def matchJson (m : Match) : Json :=
  .object
    [("source", .text m.source.id.render),
      ("target", .optional (fun t => .text t.id.render) m.target),
      ("kind", .text (basisWord m.basis)),
      ("score", .optional .float (basisScore m.basis))]

/-- A suggestion in JSON. -/
def suggestionJson (s : Suggestion) : Json :=
  .object
    [("source_type", .text s.source),
      ("target_type", .optional .text s.target),
      ("resolution", .text s.resolution.word),
      ("members", listJson matchJson s.matching.matched),
      ("unmatched_sources", listJson (fun m => .text m.id.render) s.matching.unmatched),
      ("new_targets", listJson (fun m => .text m.id.render) s.matching.added)]

/-- The suggestions for the types of a dictionary, in JSON. -/
def suggestionsJson (ss : List Suggestion) : Json := listJson suggestionJson ss

end Report

end ObjectStore
