import ObjectStore.Text.Quoted

/-!
# Outlines

An outline shows what a value is made of, on one line and for human eyes:
names are written out, texts are quoted, and the parts of a structure stand
behind their names. What belongs to the value but is not shown is hinted at
by two dots.
-/

namespace ObjectStore

/-- What a value is made of. -/
inductive Outline where
  /-- Something that is written as it is, such as a number. -/
  | plain (text : String)
  /-- A text, between quotes. -/
  | quoted (text : String)
  /-- A name with parts that have none. -/
  | tuple (name : String) (parts : List Outline)
  /-- A name with named parts, of which some may be left out. -/
  | structured (name : String) (fields : List (String × Outline)) (complete : Bool)
  /-- A list. -/
  | list (items : List Outline)

namespace Outline

/-- A number. -/
def number (n : Nat) : Outline := plain (toString n)

/-- A truth value. -/
def truth (b : Bool) : Outline := plain (if b then "true" else "false")

/-- A value that may be absent. -/
def optional : Option Outline → Outline
  | none => plain "None"
  | some o => tuple "Some" [o]

/-- A structure of which all parts are shown. -/
def whole (name : String) (fields : List (String × Outline)) : Outline :=
  structured name fields true

/-- A structure of which some parts are shown. -/
def partly (name : String) (fields : List (String × Outline)) : Outline :=
  structured name fields false

/-- Texts with commas between them. -/
def commas (texts : List String) : String := String.intercalate ", " texts

mutual

/-- The written form of an outline. -/
def render : Outline → String
  | plain text => text
  | quoted text => Quoted.quote text
  | tuple name parts => name ++ "(" ++ commas (renderAll parts) ++ ")"
  | structured name fields complete =>
      let shown := renderFields fields ++ if complete then [] else [".."]
      name ++ " \x7b " ++ commas shown ++ " \x7d"
  | list items => "[" ++ commas (renderAll items) ++ "]"

/-- The written forms of several outlines. -/
def renderAll : List Outline → List String
  | [] => []
  | o :: rest => o.render :: renderAll rest

/-- The written forms of named parts. -/
def renderFields : List (String × Outline) → List String
  | [] => []
  | (name, o) :: rest => (name ++ ": " ++ o.render) :: renderFields rest

end

end Outline

end ObjectStore
