import Lox.Token
/-! Everything that can be reported about a program. Each stage has its own type
of faults; a diagnostic is a fault together with the place it is blamed on. The
wording stands here and nowhere else. -/

namespace Lox

/-! ## Faults of the text -/

inductive LexicalFault where
  | unexpectedCharacter (character : Char)
  | unterminatedString
  deriving Repr, DecidableEq

def LexicalFault.message : LexicalFault → String
  | unexpectedCharacter character => "Unexpected character: " ++ String.ofList [character]
  | unterminatedString => "Unterminated string."

/-! ## Faults of the sentence -/

/-- A body with parameters is that of a function or that of a method. -/
inductive BodyRole where
  | function
  | method
  deriving Repr, DecidableEq

def BodyRole.text : BodyRole → String
  | function => "function"
  | method => "method"

/-- The parts of a sentence that can be missing. -/
inductive Part where
  | className
  | superclassName
  | classStart
  | classEnd
  | bodyName (role : BodyRole)
  | parametersStart (role : BodyRole)
  | parameterName
  | parametersEnd
  | bodyStart (role : BodyRole)
  | variableName
  | variableEnd
  | forStart
  | forConditionEnd
  | forEnd
  | printEnd
  | expressionEnd
  | ifStart
  | ifEnd
  | whileStart
  | whileEnd
  | returnEnd
  | blockEnd
  | expression
  | argumentsEnd
  | propertyName
  | superDot
  | superMethod
  | groupEnd
  deriving Repr, DecidableEq

def Part.text : Part → String
  | className => "class name"
  | superclassName => "superclass name"
  | classStart => "'\x7b' before class body"
  | classEnd => "'\x7d' after class body"
  | bodyName role => role.text ++ " name"
  | parametersStart role => "'(' after " ++ role.text ++ " name"
  | parameterName => "parameter name"
  | parametersEnd => "')' after parameters"
  | bodyStart role => "'\x7b' before " ++ role.text ++ " body"
  | variableName => "variable name"
  | variableEnd => "';' after variable declaration"
  | forStart => "'(' after 'for'"
  | forConditionEnd => "';' after loop condition"
  | forEnd => "')' after for clauses"
  | printEnd => "';' after value"
  | expressionEnd => "';' after expression"
  | ifStart => "'(' after 'if'"
  | ifEnd => "')' after if condition"
  | whileStart => "'(' after 'while'"
  | whileEnd => "')' after condition"
  | returnEnd => "';' after return value"
  | blockEnd => "'\x7d' after block"
  | expression => "expression"
  | argumentsEnd => "')' after arguments"
  | propertyName => "property name after '.'"
  | superDot => "'.' after 'super'"
  | superMethod => "superclass method name"
  | groupEnd => "')' after expression"

inductive GrammarFault where
  | missing (part : Part)
  | tooManyParameters
  | tooManyArguments
  | invalidTarget
  deriving Repr, DecidableEq

/-- The longest list of parameters or of arguments. -/
def maximumArity : Nat := 255

def GrammarFault.message : GrammarFault → String
  | missing part => "Expected " ++ part.text ++ "."
  | tooManyParameters => "Cannot have more than " ++ Nat.repr maximumArity ++ " parameters."
  | tooManyArguments => "Cannot have more than " ++ Nat.repr maximumArity ++ " arguments."
  | invalidTarget => "Invalid assignment target."

/-- A fault after which the sentence can still be read on is only reported. -/
def GrammarFault.isReportOnly : GrammarFault → Bool
  | missing _ => false
  | tooManyParameters | tooManyArguments | invalidTarget => true

/-! ## Faults of scope -/

inductive ScopeFault where
  | topLevelReturn
  | returnFromInitializer
  | selfInheritance
  | readInOwnInitializer
  | thisOutsideClass
  | superOutsideClass
  | superWithoutSuperclass
  | redeclared
  deriving Repr, DecidableEq

def ScopeFault.message : ScopeFault → String
  | topLevelReturn => "Cannot return from top-level code."
  | returnFromInitializer => "Cannot return a value from an initializer."
  | selfInheritance => "A class cannot inherit from itself."
  | readInOwnInitializer => "Cannot read local variable in its own initializer."
  | thisOutsideClass => "Cannot use 'this' outside of a class."
  | superOutsideClass => "Cannot use 'super' outside of a class."
  | superWithoutSuperclass => "Cannot use 'super' in a class with no superclass."
  | redeclared => "Variable with this name already declared in this scope."

/-! ## Faults of a run -/

inductive RuntimeFault where
  | undefinedVariable (name : String)
  | scopeTooShallow (name : String)
  | superclassNotClass
  | superOutsideClass
  | notCallable
  | wrongArgumentCount (expected given : Nat)
  | noProperties
  | noFields
  | undefinedProperty (name : String)
  | operandNotNumber
  | operandsNotNumbers
  | operandsNotAddable
  | invalidOperator (lexeme : String)
  deriving Repr, DecidableEq

def RuntimeFault.message : RuntimeFault → String
  | undefinedVariable name => "Undefined variable '" ++ name ++ "'."
  | scopeTooShallow name => "Unresolvable scope depth for '" ++ name ++ "'."
  | superclassNotClass => "Superclass must be a class."
  | superOutsideClass => "Cannot use 'super' outside of a class."
  | notCallable => "Can only call functions and classes."
  | wrongArgumentCount expected given =>
      "Expected " ++ Nat.repr expected ++ " arguments but got " ++ Nat.repr given ++ "."
  | noProperties => "Only instances have properties."
  | noFields => "Only instances have fields."
  | undefinedProperty name => "Undefined property '" ++ name ++ "'."
  | operandNotNumber => "Operand must be a number."
  | operandsNotNumbers => "Operands must be numbers."
  | operandsNotAddable => "Operands must be two numbers or two strings."
  | invalidOperator lexeme => "Invalid binary operator '" ++ lexeme ++ "'."

/-! ## Faults of the output -/

inductive SinkFault where
  | full
  | flushFailed
  deriving Repr, DecidableEq

def SinkFault.message : SinkFault → String
  | full => "sink full"
  | flushFailed => "flush failed"

/-! ## Diagnostics -/

inductive Diagnostic where
  | lexical (fault : LexicalFault) (line : Nat)
  | grammar (fault : GrammarFault) (blamed : Token)
  | scope (fault : ScopeFault) (blamed : Token)
  | runtime (fault : RuntimeFault) (line : Nat)
  | output (fault : SinkFault)
  deriving Repr, DecidableEq

/-- Where a token stands, in words. -/
def Token.place (token : Token) : String :=
  if token.isEnd then " at end" else " at '" ++ token.lexeme ++ "'"

namespace Diagnostic

def message : Diagnostic → String
  | lexical fault _ => fault.message
  | grammar fault _ => fault.message
  | scope fault _ => fault.message
  | runtime fault _ => fault.message
  | output fault => fault.message

def lineText (line : Nat) : String :=
  "[line " ++ Nat.repr line ++ "]"

/-- The message with its place: in front of it for what is found before a run,
behind it for what ends a run. -/
def text : Diagnostic → String
  | lexical fault line => lineText line ++ " Error: " ++ fault.message
  | grammar fault blamed =>
      lineText blamed.line ++ " Error" ++ blamed.place ++ ": " ++ fault.message
  | scope fault blamed =>
      lineText blamed.line ++ " Error" ++ blamed.place ++ ": " ++ fault.message
  | runtime fault line => fault.message ++ "\n" ++ lineText line
  | output fault => fault.message

/-- Several diagnostics, one under the other. -/
def report (diagnostics : List Diagnostic) : String :=
  String.intercalate "\n" (diagnostics.map text)

example : text (.grammar (.missing .expression) (.endOfInput 3)) =
    "[line 3] Error at end: Expected expression." := by decide +kernel

example : text (.runtime (.undefinedVariable "a") 1) = "Undefined variable 'a'.\n[line 1]" := by
  decide +kernel

end Diagnostic

end Lox
