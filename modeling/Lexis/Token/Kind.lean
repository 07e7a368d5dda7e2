/-!
# Kinds of token

A token is a keyword, an operator, a delimiter, a literal, an identifier, the end of the input or
an error. Each kind has a name, by which the formats of the library write it, and no two kinds
share one (`Kind.name_injective`); `Kind.ofName?` reads a name back (`Kind.ofName?_eq_some_iff`).
-/

set_option autoImplicit false

namespace Lexis

/-- The words of declarations, statements and blocks. -/
inductive Keyword
  | declare | program | integerType | realType | read | print
  | ifWord | thenWord | elseWord | whileWord | beginWord | endWord
  deriving DecidableEq

/-- Arithmetic, relational and Boolean operators, and assignment. -/
inductive Operator
  | star | slash | plus | minus
  | less | lessEqual | greater | greaterEqual | equalEqual | notEqual
  | and | or | assign
  deriving DecidableEq

inductive Delimiter
  | leftBracket | rightBracket | leftParen | rightParen | colon
  deriving DecidableEq

inductive Literal
  | integer | real | string
  deriving DecidableEq

inductive Kind
  | keyword (word : Keyword)
  | operator (op : Operator)
  | delimiter (mark : Delimiter)
  | identifier
  | literal (form : Literal)
  | eof
  | error
  deriving DecidableEq

namespace Keyword

def all : List Keyword :=
  [declare, program, integerType, realType, read, print,
   ifWord, thenWord, elseWord, whileWord, beginWord, endWord]

def name : Keyword → String
  | declare => "Declare"
  | program => "Program"
  | integerType => "IntegerType"
  | realType => "RealType"
  | read => "Read"
  | print => "Print"
  | ifWord => "If"
  | thenWord => "Then"
  | elseWord => "Else"
  | whileWord => "While"
  | beginWord => "Begin"
  | endWord => "End"

theorem mem_all (word : Keyword) : word ∈ all := by
  cases word <;> decide

end Keyword

namespace Operator

def all : List Operator :=
  [star, slash, plus, minus, less, lessEqual, greater, greaterEqual, equalEqual, notEqual,
   and, or, assign]

def name : Operator → String
  | star => "Star"
  | slash => "Slash"
  | plus => "Plus"
  | minus => "Minus"
  | less => "Less"
  | lessEqual => "LessEqual"
  | greater => "Greater"
  | greaterEqual => "GreaterEqual"
  | equalEqual => "EqualEqual"
  | notEqual => "NotEqual"
  | and => "And"
  | or => "Or"
  | assign => "Assign"

theorem mem_all (op : Operator) : op ∈ all := by
  cases op <;> decide

end Operator

namespace Delimiter

def all : List Delimiter :=
  [leftBracket, rightBracket, leftParen, rightParen, colon]

def name : Delimiter → String
  | leftBracket => "LeftBracket"
  | rightBracket => "RightBracket"
  | leftParen => "LeftParen"
  | rightParen => "RightParen"
  | colon => "Colon"

theorem mem_all (mark : Delimiter) : mark ∈ all := by
  cases mark <;> decide

end Delimiter

namespace Literal

def all : List Literal :=
  [integer, real, string]

def name : Literal → String
  | integer => "Integer"
  | real => "Real"
  | string => "String"

theorem mem_all (form : Literal) : form ∈ all := by
  cases form <;> decide

end Literal

namespace Kind

def all : List Kind :=
  Keyword.all.map keyword ++ Operator.all.map operator ++ Delimiter.all.map delimiter ++
    identifier :: Literal.all.map literal ++ [eof, error]

def name : Kind → String
  | keyword word => word.name
  | operator op => op.name
  | delimiter mark => mark.name
  | identifier => "Identifier"
  | literal form => form.name
  | eof => "Eof"
  | error => "Error"

/-- The kind of a name; names are matched exactly. -/
def ofName? (name : String) : Option Kind :=
  all.find? (·.name == name)

def isKeyword : Kind → Bool
  | keyword _ => true
  | _ => false

/-- The words for "and" and "or" are operators, not keywords. -/
def isOperator : Kind → Bool
  | operator _ => true
  | _ => false

def isLiteral : Kind → Bool
  | literal _ => true
  | _ => false

theorem mem_all (kind : Kind) : kind ∈ all := by
  cases kind with
  | keyword word => simp [all, Keyword.mem_all]
  | operator op => simp [all, Operator.mem_all]
  | delimiter mark => simp [all, Delimiter.mem_all]
  | identifier => simp [all]
  | literal form => simp [all, Literal.mem_all]
  | eof => simp [all]
  | error => simp [all]

theorem ofName?_name (kind : Kind) : ofName? kind.name = some kind := by
  cases kind with
  | keyword word => cases word <;> decide
  | operator op => cases op <;> decide
  | delimiter mark => cases mark <;> decide
  | identifier => decide
  | literal form => cases form <;> decide
  | eof => decide
  | error => decide

/-- No two kinds share a name. -/
theorem name_injective {a b : Kind} (h : a.name = b.name) : a = b := by
  have := ofName?_name a
  rw [h, ofName?_name b] at this
  exact (Option.some.inj this).symm

theorem name_of_ofName? {name : String} {kind : Kind} (h : ofName? name = some kind) :
    kind.name = name := by
  have found := List.find?_some (show all.find? (fun k => k.name == name) = some kind from h)
  exact eq_of_beq found

theorem ofName?_eq_some_iff {name : String} {kind : Kind} :
    ofName? name = some kind ↔ kind.name = name :=
  ⟨name_of_ofName?, fun h => h ▸ ofName?_name kind⟩

end Kind

end Lexis
