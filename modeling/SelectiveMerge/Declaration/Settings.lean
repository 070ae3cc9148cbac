import SelectiveMerge.Declaration.Grammar.Depth
import SelectiveMerge.Text.Similarity

/-!
# Options in attributes

A declaration and each of its fields may carry attributes, of which those called
`merge` hold options: words, or values assigned to words. Options are texts or
flags. Every fault in the options of one place is kept, in order, and a fault knows
where it was found.

* `OptionReading.ofAttributes` — the options that attributes set, with all faults
* `AttributeFault.message` — the wording of a fault
-/

namespace SelectiveMerge.Declaration

/-! ## Entries -/

/-- An entry in a list of options. -/
inductive OptionEntry where
  | literal
  | named (entry : Attribute)

namespace OptionEntry

open TokenReader Peek

/-- Whether a literal comes next to which nothing is assigned. -/
def startsLiteral : Peek := fun ts =>
  Peek.literal ts && !(oneOf ["true", "false"] ts && second (mark "=") ts)

/-- Reads an entry of a list of options. -/
def read (inner : Inner) : TokenReader OptionEntry :=
  choose
    [(startsLiteral, do
        let _ ← literalToken
        return .literal),
      (fun ts => someWord ts || (mark "::" ts && third someWord ts), do
        return .named (← Grammar.attributeBody inner))]
    (complain (.expected ["identifier or literal"]))

/-- Reads entries with commas between them up to the end. -/
def readAll (inner : Inner) : TokenReader (List OptionEntry) :=
  repeatStep (fun entries => do
    if ← atEnd then return (entries, false)
    else
      let entries := entries ++ [← read inner]
      if ← atEnd then return (entries, false)
      else
        let _ ← punct ","
        return (entries, true)) []

/-- The entries that trees are. -/
def ofTrees (ts : List TokenTree) : Except SyntaxFault (List OptionEntry) :=
  TokenReader.all (readAll (Inner.forTrees ts)) ts

end OptionEntry

/-! ## Faults -/

/-- What is wrong with attributes or with the form of a declaration. -/
inductive AttributeFault where
  | unknownOption (name : String) (suggestion : Option String)
  | duplicateOption (name : String)
  | unexpectedType (sort : String)
  | unexpectedFormat (format : String)
  | unknownValue (text : String)
  | assignedAttribute
  | malformed (fault : SyntaxFault)
  | unsupportedShape (found expected : String)
  | located (place : String) (fault : AttributeFault)
  | several (faults : List AttributeFault)

namespace AttributeFault

/-- The fault that stands for all of some faults. -/
def ofList : List AttributeFault → AttributeFault
  | [fault] => fault
  | faults => .several faults

/-- The place of a fault in words. -/
def placeText : List String → String
  | [] => ""
  | places => " at " ++ String.intercalate "/" places

mutual

/-- The wording of a fault at a place. -/
def messageAt (places : List String) : AttributeFault → String
  | .unknownOption name suggestion =>
      "Unknown field: `" ++ name ++ "`" ++
        (match suggestion with
          | some other => ". Did you mean `" ++ other ++ "`?"
          | none => "") ++ placeText places
  | .duplicateOption name => "Duplicate field `" ++ name ++ "`" ++ placeText places
  | .unexpectedType sort => "Unexpected type `" ++ sort ++ "`" ++ placeText places
  | .unexpectedFormat format =>
      "Unexpected meta-item format `" ++ format ++ "`" ++ placeText places
  | .unknownValue text => "Unknown literal value `" ++ text ++ "`" ++ placeText places
  | .assignedAttribute =>
      "Name-value arguments are not supported. Use #[merge(...)]" ++ placeText places
  | .malformed fault => fault.message ++ placeText places
  | .unsupportedShape found expected =>
      "Unsupported shape `" ++ found ++ "`. Expected " ++ expected ++ "." ++ placeText places
  | .located place fault => fault.messageAt (places ++ [place])
  | .several faults =>
      "Multiple errors: (" ++ String.intercalate ", " (messages faults) ++ ")" ++ placeText places

/-- The wordings of several faults. -/
def messages : List AttributeFault → List String
  | [] => []
  | fault :: faults => fault.messageAt [] :: messages faults

end

/-- The wording of a fault. -/
def message (fault : AttributeFault) : String := fault.messageAt []

end AttributeFault

/-! ## Reading options -/

/-- The two sorts of options. -/
inductive OptionSort where
  | text
  | flag
  deriving DecidableEq

/-- What an option was set to. -/
inductive OptionSetting where
  | text (value : String)
  | flag (value : Bool)
  /-- The option was there, but could not be read. -/
  | unreadable
  deriving DecidableEq

/-- What stands in place of a value has to be readable as a list of options, and is no
value even then. -/
def listFault (ts : List TokenTree) : AttributeFault :=
  match OptionEntry.ofTrees ts with
  | .ok _ => .unexpectedFormat "list"
  | .error fault => .malformed fault

/-- Reads an option that is a text. -/
def AttributeForm.textSetting : AttributeForm → Except AttributeFault OptionSetting
  | .word => .error (.unexpectedFormat "word")
  | .list _ ts => .error (listFault ts)
  | .value e =>
      match e.sort with
      | .literal (.text s) => .ok (.text s)
      | sort => .error (.unexpectedType sort.name)

/-- Reads an option that is a flag: the word itself sets it. -/
def AttributeForm.flagSetting : AttributeForm → Except AttributeFault OptionSetting
  | .word => .ok (.flag true)
  | .list _ ts => .error (listFault ts)
  | .value e =>
      match e.sort with
      | .literal (.truth b) => .ok (.flag b)
      | .literal (.text s) =>
          if s = "true" then .ok (.flag true)
          else if s = "false" then .ok (.flag false)
          else .error (.unknownValue s)
      | sort => .error (.unexpectedType sort.name)

/-- Reads an option of a sort. -/
def AttributeForm.setting (form : AttributeForm) :
    OptionSort → Except AttributeFault OptionSetting
  | .text => form.textSetting
  | .flag => form.flagSetting

/-- The options set so far, and the faults found, in order. -/
structure OptionReading where
  settings : List (String × OptionSetting)
  faults : List AttributeFault

namespace OptionReading

/-- Nothing set, nothing wrong. -/
def empty : OptionReading := ⟨[], []⟩

/-- With one more fault. -/
def withFault (r : OptionReading) (fault : AttributeFault) : OptionReading :=
  { r with faults := r.faults ++ [fault] }

/-- What an option was set to. -/
def find? (r : OptionReading) (name : String) : Option OptionSetting :=
  (r.settings.find? (·.1 == name)).map (·.2)

/-- Takes in an option by its name. -/
def addNamed (known : List (String × OptionSort)) (r : OptionReading) (entry : Attribute) :
    OptionReading :=
  let name := entry.path
  match (known.find? (·.1 == name)).map (·.2) with
  | none => r.withFault (.unknownOption name (Text.closest? name (known.map (·.1))))
  | some sort =>
      if (r.find? name).isSome then r.withFault (.duplicateOption name)
      else
        match entry.form.setting sort with
        | .ok setting => { r with settings := r.settings ++ [(name, setting)] }
        | .error fault =>
            ⟨r.settings ++ [(name, .unreadable)], r.faults ++ [.located name fault]⟩

/-- Takes in an entry of a list of options. -/
def add (known : List (String × OptionSort)) (r : OptionReading) : OptionEntry → OptionReading
  | .literal => r.withFault (.unexpectedFormat "literal")
  | .named entry => addNamed known r entry

/-- Takes in an attribute; only those called `merge` hold options. -/
def addAttribute (known : List (String × OptionSort)) (r : OptionReading) (a : Attribute) :
    OptionReading :=
  if a.rooted || a.path ≠ "merge" then r
  else
    match a.form with
    | .word => r
    | .value _ => r.withFault .assignedAttribute
    | .list _ ts =>
        match OptionEntry.ofTrees ts with
        | .ok entries => entries.foldl (add known) r
        | .error fault => r.withFault (.malformed fault)

/-- The options that attributes set. -/
def ofAttributes (known : List (String × OptionSort)) (attributes : List Attribute) :
    OptionReading :=
  attributes.foldl (addAttribute known) empty

/-- The value of a flag, which is not set at first. -/
def flag (r : OptionReading) (name : String) : Bool := r.find? name == some (.flag true)

/-- The value of a text, which is missing at first. -/
def text? (r : OptionReading) (name : String) : Option String :=
  match r.find? name with
  | some (.text s) => some s
  | _ => none

end OptionReading

end SelectiveMerge.Declaration
