import ScopeCheck.Span

/-!
# Diagnostics

A diagnostic reports one misuse of a name in a program: the problem, where it shows, and, when an
earlier declaration has a part in it, where that declaration stands.  Each problem has a code, a
message, and two short labels, one for the place of the problem and one for the related
declaration.  `Diagnostics` collects them in the order in which they are found.
-/

namespace ScopeCheck

/-- The ways of using a name that its declaration does not allow. -/
inductive Misuse where
  /-- A function stands on the left of an assignment. -/
  | assignedFunction
  /-- A function stands where a value is read. -/
  | readFunction
  /-- A variable that was declared before the call is called. -/
  | calledVariable
  /-- A call, judged after the whole program was seen, leads to something other than a function. -/
  | calledNonFunction
  deriving DecidableEq, Inhabited

/-- The words for a misuse. -/
def Misuse.text : Misuse → String
  | .assignedFunction => "assignment to function name"
  | .readFunction => "function name used as variable"
  | .calledVariable => "variable called as function"
  | .calledNonFunction => "call target is not a function"

/-- What can be wrong with the names of a program. -/
inductive Problem where
  /-- The name is declared twice in one scope. -/
  | redeclared (name : String)
  /-- Two parameters of one function have the same name. -/
  | repeatedParameter (function param : String)
  /-- No declaration of the name is visible where it is read or assigned. -/
  | unknownVariable (name : String)
  /-- No function of the name is visible where it is called. -/
  | unknownFunction (name : String)
  /-- The name is declared, and used as something else. -/
  | misused (name : String) (misuse : Misuse)
  /-- The function is called with another number of arguments than it has parameters. -/
  | wrongArity (function : String) (expected actual : Nat)
  deriving DecidableEq, Inhabited

namespace Problem

/-- The code under which a problem is known. -/
def code : Problem → String
  | .redeclared _ => "E0001"
  | .repeatedParameter _ _ => "E0002"
  | .unknownVariable _ => "E0003"
  | .unknownFunction _ => "E0004"
  | .misused _ _ => "E0005"
  | .wrongArity _ _ _ => "E0006"

/-- The name that the problem is about. -/
def name : Problem → String
  | .redeclared name => name
  | .repeatedParameter _ param => param
  | .unknownVariable name => name
  | .unknownFunction name => name
  | .misused name _ => name
  | .wrongArity function _ _ => function

/-- A name in single quotes. -/
def quoted (name : String) : String :=
  "'" ++ name ++ "'"

/-- The problem in one line. -/
def message : Problem → String
  | .redeclared name => "duplicate declaration of " ++ quoted name ++ " in the same scope"
  | .repeatedParameter function param =>
    "duplicate parameter " ++ quoted param ++ " in function " ++ quoted function
  | .unknownVariable name => "undefined variable " ++ quoted name
  | .unknownFunction name => "call to undefined function " ++ quoted name
  | .misused name misuse => misuse.text ++ ": " ++ quoted name
  | .wrongArity function expected actual =>
    "argument count mismatch in call to " ++ quoted function ++ ": expected " ++
      toString expected ++ ", got " ++ toString actual

/-- The label at the place of the problem.  One argument is counted in the singular. -/
def label : Problem → String
  | .redeclared _ => "redeclared here"
  | .repeatedParameter _ _ => "repeated here"
  | .unknownVariable _ => "not found in this scope"
  | .unknownFunction _ => "no function with this name is visible"
  | .misused _ misuse => misuse.text
  | .wrongArity _ expected _ =>
    "expected " ++ toString expected ++ (if expected = 1 then " argument" else " arguments")

/-- The label at the related declaration. -/
def relatedLabel (problem : Problem) : String :=
  match problem with
  | .redeclared _ => "first declared here"
  | .repeatedParameter _ _ => "first declared here"
  | _ => quoted problem.name ++ " declared here"

end Problem

/-- A problem, where it shows, and where the related declaration stands, if there is one. -/
structure Diagnostic where
  problem : Problem
  span : Span := {}
  related : Option Span := none
  deriving DecidableEq, Inhabited

/-- The message of a diagnostic is that of its problem. -/
def Diagnostic.message (diagnostic : Diagnostic) : String :=
  diagnostic.problem.message

/-- Diagnostics in the order in which they were found. -/
structure Diagnostics where
  items : Array Diagnostic := #[]
  deriving DecidableEq, Inhabited

namespace Diagnostics

/-- The diagnostics as a list, first found first. -/
def toList (diagnostics : Diagnostics) : List Diagnostic :=
  diagnostics.items.toList

/-- Collects the diagnostics of a list. -/
def ofList (diagnostics : List Diagnostic) : Diagnostics :=
  ⟨diagnostics.toArray⟩

/-- Adds a diagnostic behind all others. -/
def push (diagnostics : Diagnostics) (diagnostic : Diagnostic) : Diagnostics :=
  ⟨diagnostics.items.push diagnostic⟩

/-- How many diagnostics there are. -/
def size (diagnostics : Diagnostics) : Nat :=
  diagnostics.items.size

/-- No diagnostic was found. -/
def isEmpty (diagnostics : Diagnostics) : Bool :=
  diagnostics.items.isEmpty

/-- Every diagnostic is an error, so there are errors as soon as there is a diagnostic. -/
def hasErrors (diagnostics : Diagnostics) : Bool :=
  !diagnostics.isEmpty

/-- The problems alone, in order. -/
def problems (diagnostics : Diagnostics) : List Problem :=
  diagnostics.toList.map Diagnostic.problem

/-- One line for each diagnostic under a heading, or one line that says that there is none. -/
def summary (diagnostics : Diagnostics) : String :=
  if diagnostics.isEmpty then "No semantic errors found.\n"
  else "Semantic errors:\n" ++
    String.join (diagnostics.toList.map fun diagnostic => " - " ++ diagnostic.message ++ "\n")

@[simp] theorem toList_push (diagnostics : Diagnostics) (diagnostic : Diagnostic) :
    (diagnostics.push diagnostic).toList = diagnostics.toList ++ [diagnostic] := by
  simp [toList, push]

@[simp] theorem length_toList (diagnostics : Diagnostics) :
    diagnostics.toList.length = diagnostics.size := by
  simp [toList, size]

end Diagnostics
end ScopeCheck
