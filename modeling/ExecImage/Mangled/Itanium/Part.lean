/-!
# Parts of names of the Itanium scheme

A mangled name of this scheme is a term of names, types and expressions. Any of them may be referred back to from a later
place of the name, whatever it is there used as, so that all are parts of one type.

Besides the parts, this module holds the words of the scheme that have codes of their own: basic types, operators and a few
names of the standard library.
-/

namespace ExecImage.Mangled.Itanium

/-- A name of the standard library with a code of its own. -/
inductive Abbreviation where
  | std
  | allocator
  | basicString
  | string
  | istream
  | ostream
  | iostream
  deriving DecidableEq, Repr

namespace Abbreviation

/-- The abbreviation with a code letter. -/
def ofLetter? : Char → Option Abbreviation
  | 't' => some std
  | 'a' => some allocator
  | 'b' => some basicString
  | 's' => some string
  | 'i' => some istream
  | 'o' => some ostream
  | 'd' => some iostream
  | _ => none

/-- The name that is abbreviated. -/
def text : Abbreviation → String
  | std => "std"
  | allocator => "std::allocator"
  | basicString => "std::basic_string"
  | string => "std::string"
  | istream => "std::basic_istream<char, std::char_traits<char> >"
  | ostream => "std::ostream"
  | iostream => "std::basic_iostream<char, std::char_traits<char> >"

/-- The name that a constructor has. A namespace has none. -/
def className? : Abbreviation → Option String
  | std => none
  | allocator => some "allocator"
  | basicString => some "basic_string"
  | string => some "string"
  | istream => some "basic_istream"
  | ostream => some "ostream"
  | iostream => some "basic_iostream"

end Abbreviation

/-- A basic type: its code and its name. -/
structure BasicType where
  /-- The letters that stand for it. -/
  code : String
  /-- How it is shown. -/
  name : String
  deriving DecidableEq, Repr

/-- The basic types. -/
def basicTypes : List BasicType := [
  ⟨"v", "void"⟩, ⟨"w", "wchar_t"⟩, ⟨"b", "bool"⟩, ⟨"c", "char"⟩, ⟨"a", "signed char"⟩, ⟨"h", "unsigned char"⟩, ⟨"s", "short"⟩,
  ⟨"t", "unsigned short"⟩, ⟨"i", "int"⟩, ⟨"j", "unsigned int"⟩, ⟨"l", "long"⟩, ⟨"m", "unsigned long"⟩, ⟨"x", "long long"⟩,
  ⟨"y", "unsigned long long"⟩, ⟨"n", "__int128"⟩, ⟨"o", "unsigned __int128"⟩, ⟨"f", "float"⟩, ⟨"d", "double"⟩,
  ⟨"e", "long double"⟩, ⟨"g", "__float128"⟩, ⟨"z", "..."⟩, ⟨"Dd", "decimal64"⟩, ⟨"De", "decimal128"⟩, ⟨"Df", "decimal32"⟩,
  ⟨"Dh", "half"⟩, ⟨"Di", "char32_t"⟩, ⟨"Ds", "char16_t"⟩, ⟨"Du", "char8_t"⟩, ⟨"Da", "auto"⟩, ⟨"Dc", "decltype(auto)"⟩,
  ⟨"Dn", "std::nullptr_t"⟩]

/-- An operator: its code, how it is written, and how many operands it has. -/
structure Operator where
  /-- The two letters that stand for it. -/
  code : String
  /-- How it is written. -/
  symbol : String
  /-- How many operands it has in an expression. -/
  arity : Nat
  deriving DecidableEq, Repr

/-- The operators. -/
def operators : List Operator := [
  ⟨"nw", "new", 3⟩, ⟨"na", "new[]", 3⟩, ⟨"dl", "delete", 1⟩, ⟨"da", "delete[]", 1⟩, ⟨"aw", "co_await", 1⟩, ⟨"ps", "+", 1⟩,
  ⟨"ng", "-", 1⟩, ⟨"ad", "&", 1⟩, ⟨"de", "*", 1⟩, ⟨"co", "~", 1⟩, ⟨"pl", "+", 2⟩, ⟨"mi", "-", 2⟩, ⟨"ml", "*", 2⟩,
  ⟨"dv", "/", 2⟩, ⟨"rm", "%", 2⟩, ⟨"an", "&", 2⟩, ⟨"or", "|", 2⟩, ⟨"eo", "^", 2⟩, ⟨"aS", "=", 2⟩, ⟨"pL", "+=", 2⟩,
  ⟨"mI", "-=", 2⟩, ⟨"mL", "*=", 2⟩, ⟨"dV", "/=", 2⟩, ⟨"rM", "%=", 2⟩, ⟨"aN", "&=", 2⟩, ⟨"oR", "|=", 2⟩, ⟨"eO", "^=", 2⟩,
  ⟨"ls", "<<", 2⟩, ⟨"rs", ">>", 2⟩, ⟨"lS", "<<=", 2⟩, ⟨"rS", ">>=", 2⟩, ⟨"eq", "==", 2⟩, ⟨"ne", "!=", 2⟩, ⟨"lt", "<", 2⟩,
  ⟨"gt", ">", 2⟩, ⟨"le", "<=", 2⟩, ⟨"ge", ">=", 2⟩, ⟨"ss", "<=>", 2⟩, ⟨"nt", "!", 1⟩, ⟨"aa", "&&", 2⟩, ⟨"oo", "||", 2⟩,
  ⟨"pp", "++", 1⟩, ⟨"mm", "--", 1⟩, ⟨"cm", ",", 2⟩, ⟨"pm", "->*", 2⟩, ⟨"pt", "->", 2⟩, ⟨"cl", "()", 2⟩, ⟨"ix", "[]", 2⟩,
  ⟨"qu", "?", 3⟩]

/-- The operator is a word, which is set apart from the word before it. -/
def Operator.isWord (op : Operator) : Bool :=
  op.symbol.toList.head?.any Char.isAlpha

/-- The qualifiers of a type or of the object that a function is called on. -/
structure Qualifiers where
  isConst : Bool
  isVolatile : Bool
  isRestrict : Bool
  deriving DecidableEq, Repr

namespace Qualifiers

/-- No qualifiers. -/
def none : Qualifiers := ⟨false, false, false⟩

/-- The words for the qualifiers, in the order in which they are shown. -/
def words (q : Qualifiers) : List String :=
  (if q.isConst then ["const"] else []) ++ (if q.isVolatile then ["volatile"] else []) ++
    (if q.isRestrict then ["restrict"] else [])

end Qualifiers

/-- The kinds of references. -/
inductive ReferenceKind where
  | lvalue
  | rvalue
  deriving DecidableEq, Repr

namespace ReferenceKind

/-- How a reference is written. -/
def symbol : ReferenceKind → String
  | lvalue => "&"
  | rvalue => "&&"

end ReferenceKind

/-- What is put around a type to make another type. -/
inductive Wrapper where
  | qualified (q : Qualifiers)
  | pointer
  | reference (kind : ReferenceKind)
  | complex
  | imaginary
  deriving DecidableEq, Repr

/-- How a thunk adjusts an address. -/
inductive Adjustment where
  /-- By a constant. -/
  | offset (by_ : Int)
  /-- By a constant and by an entry of the virtual table. -/
  | virtualOffset (by_ entry : Int)
  deriving DecidableEq, Repr

namespace Adjustment

/-- An adjustment as it is shown. -/
def text : Adjustment → String
  | offset n => "\x7boffset(" ++ toString n ++ ")\x7d"
  | virtualOffset n entry => "\x7bvirtual offset(" ++ toString n ++ ", " ++ toString entry ++ ")\x7d"

end Adjustment

/-- What a compiler makes for a type, a variable or a function. -/
inductive Role where
  | virtualTable
  | tableOfVirtualTables
  | typeInfo
  | typeInfoName
  | typeInfoFunction
  | thunk (adjustments : List Adjustment)
  | guard
  | temporary (number : Nat)
  | initOfThreadLocal
  | wrapperOfThreadLocal
  | hiddenAlias
  | transactionClone
  | nonTransactionClone
  deriving DecidableEq, Repr

namespace Role

/-- What is shown before the thing that something is made for. -/
def before : Role → String
  | virtualTable => "\x7bvtable("
  | tableOfVirtualTables => "\x7bvtt("
  | typeInfo => "typeinfo for "
  | typeInfoName => "typeinfo name for "
  | typeInfoFunction => "typeinfo fn for "
  | thunk adjustments => "\x7bvirtual override thunk(" ++ String.join (adjustments.map fun a => a.text ++ ", ")
  | guard => "guard variable for "
  | temporary number => "reference temporary #" ++ toString number ++ " for "
  | initOfThreadLocal => "TLS init function for "
  | wrapperOfThreadLocal => "TLS wrapper function for "
  | hiddenAlias => "hidden alias for "
  | transactionClone => "transaction clone for "
  | nonTransactionClone => "non-transaction clone for "

/-- What is shown after it. -/
def after : Role → String
  | virtualTable | tableOfVirtualTables | thunk _ => ")\x7d"
  | _ => ""

end Role

/-- A part of a mangled name. -/
inductive Part where
  /-- An identifier. -/
  | source (name : List Char)
  /-- A name with tags that tell apart versions of an interface. -/
  | tagged (name : Part) (tags : List (List Char))
  /-- A name of the standard library with a code of its own. -/
  | abbreviation (a : Abbreviation)
  /-- The name of an operator function. -/
  | operator (op : Operator)
  /-- The name of a conversion function. -/
  | conversion (target : Part)
  /-- The name of an operator on literals with a suffix. -/
  | literalOperator (suffix : List Char)
  /-- The name of a constructor, or of one taken over from a base class. -/
  | constructor (inherited : Option Part)
  /-- The name of a destructor. -/
  | destructor
  /-- A closure type with the types of its parameters. -/
  | lambda (parameters : List Part) (number : Nat)
  /-- A type without a name. -/
  | unnamed (number : Nat)
  /-- A name in a scope. -/
  | member (scope name : Part)
  /-- A template with arguments. -/
  | instantiated (template : Part) (arguments : List Part)
  /-- A name with its scopes, and the qualifiers of the object that a function is called on. -/
  | nested (path : Part) (q : Qualifiers) (reference : Option ReferenceKind)
  /-- Something in the body of a function: what has a name, or a string literal. -/
  | inFunction (function : Part) (entity : Option Part)
  /-- A function: its name, and types of its result, if they hold it, and parameters. -/
  | function (name : Part) (types : List Part)
  /-- What a compiler makes for a part. -/
  | special (role : Role) (part : Part)
  /-- The virtual table of a base class during the construction of a derived class. -/
  | constructionTable (derived base : Part)
  /-- A basic type. -/
  | basic (b : BasicType)
  /-- A type with a word before its name. -/
  | elaborated (keyword : String) (name : Part)
  /-- A function type: its result and its parameters. -/
  | functionType (types : List Part) (q : Qualifiers) (isNoexcept : Bool) (reference : Option ReferenceKind)
  /-- An array type. -/
  | array (size : Option Part) (element : Part)
  /-- A vector type. -/
  | vector (size : Part) (element : Part)
  /-- A pointer to a member of a class. -/
  | memberPointer (owner target : Part)
  /-- A parameter of a template. -/
  | parameter (index : Nat)
  /-- A type made from another. -/
  | wrapped (w : Wrapper) (inside : Part)
  /-- A type with a vendor's qualifier. -/
  | vendorQualified (name : Part) (inside : Part)
  /-- A pattern that is repeated for all members of a pack. -/
  | expansion (pattern : Part)
  /-- The type of an expression. -/
  | decltype (e : Part)
  /-- A list of template arguments in the place of one. -/
  | pack (arguments : List Part)
  /-- A number. -/
  | number (n : Nat)
  /-- A literal of a type, as it is written. -/
  | literal (ofType : Part) (digits : List Char)
  /-- A parameter of a function, or the object that it is called on. -/
  | functionParameter (number : Option Nat)
  /-- An operator with one operand. -/
  | unary (symbol : String) (e : Part)
  /-- An operator with two operands. -/
  | binary (symbol : String) (left right : Part)
  /-- A choice between two expressions. -/
  | choice (condition yes no : Part)
  /-- A call. -/
  | call (function : Part) (arguments : List Part)
  /-- A conversion of expressions to a type. -/
  | convert (target : Part) (arguments : List Part)
  /-- A list in braces, after a type or alone. -/
  | braced (target : Option Part) (arguments : List Part)
  /-- A conversion with a word for its kind. -/
  | cast (keyword : String) (target e : Part)
  /-- A part between a word and what closes it. -/
  | enclosed (before : String) (e : Part) (after : String)
  /-- A member of the value of an expression. -/
  | access (symbol : String) (e name : Part)
  deriving Inhabited

namespace Part

/-- The arguments of the template that a name ends with. -/
def arguments? : Part → Option (List Part)
  | instantiated _ arguments => some arguments
  | nested path _ _ => path.arguments?
  | inFunction _ (some entity) => entity.arguments?
  | _ => none

/-- Functions of this name have no result type: constructors, destructors and conversions. -/
def hasNoResult : Part → Bool
  | constructor _ | destructor | conversion _ => true
  | tagged name _ => name.hasNoResult
  | member _ name => name.hasNoResult
  | instantiated template _ => template.hasNoResult
  | nested path _ _ => path.hasNoResult
  | inFunction _ (some entity) => entity.hasNoResult
  | _ => false

/-- The last name of a path that a constructor can have. -/
def className? : Part → Option Part
  | source name => some (source name)
  | tagged name _ => name.className?
  | abbreviation a => a.className?.map fun s => source s.toList
  | lambda parameters n => some (lambda parameters n)
  | unnamed n => some (unnamed n)
  | member scope name => name.className?.or scope.className?
  | instantiated template _ => template.className?
  | nested path _ _ => path.className?
  | inFunction _ (some entity) => entity.className?
  | _ => none

end Part

end ExecImage.Mangled.Itanium
