import SelectiveMerge.Text.Casing

/-!
# Naming rules

The rule by which the fields of a declaration are named as members. Fields are
named in small words with underscores between them; a rule keeps the name, or joins
the words with capital initials.
-/

namespace SelectiveMerge.Declaration

/-- A rule for the names of members. -/
inductive NamingRule where
  | keep
  | pascalCase
  | camelCase
  | snakeCase
  deriving DecidableEq

namespace NamingRule

/-- The words between the underscores of a name. -/
def words : List Char → List (List Char)
  | [] => [[]]
  | c :: cs =>
      if c = '_' then [] :: words cs
      else
        match words cs with
        | [] => [[c]]
        | word :: rest => (c :: word) :: rest

/-- The words of a name with capital initials, joined. -/
def pascal (name : List Char) : List Char := (words name).flatMap Text.capitalize

/-- The name of the member for a field. -/
def apply (rule : NamingRule) (name : String) : String :=
  match rule with
  | .keep | .snakeCase => name
  | .pascalCase => String.ofList (pascal name.toList)
  | .camelCase => String.ofList (Text.uncapitalize (pascal name.toList))

/-- The rule that a declaration asks for. -/
def ofText? (s : String) : Option NamingRule :=
  if s = "PascalCase" then some .pascalCase
  else if s = "camelCase" then some .camelCase
  else if s = "snake_case" then some .snakeCase
  else none

end NamingRule

end SelectiveMerge.Declaration
