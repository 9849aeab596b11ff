/-!
# Words of names of the Microsoft scheme

Codes of one to three characters stand for operators and for functions and tables that a compiler makes, for basic types, for
the ways in which functions are called, and for how members of classes may be reached.
-/

namespace ExecImage.Mangled.Microsoft

/-- Something with a code: the code and how it is shown. -/
structure Word where
  /-- The characters that stand for it. -/
  code : String
  /-- How it is shown. -/
  text : String
  deriving DecidableEq, Repr

/-- The names of operators and of what a compiler makes, after the mark for such a name. -/
def operators : List Word := [
  ⟨"2", "operator new"⟩, ⟨"3", "operator delete"⟩, ⟨"4", "operator="⟩, ⟨"5", "operator>>"⟩, ⟨"6", "operator<<"⟩,
  ⟨"7", "operator!"⟩, ⟨"8", "operator=="⟩, ⟨"9", "operator!="⟩, ⟨"A", "operator[]"⟩, ⟨"C", "operator->"⟩,
  ⟨"D", "operator*"⟩, ⟨"E", "operator++"⟩, ⟨"F", "operator--"⟩, ⟨"G", "operator-"⟩, ⟨"H", "operator+"⟩,
  ⟨"I", "operator&"⟩, ⟨"J", "operator->*"⟩, ⟨"K", "operator/"⟩, ⟨"L", "operator%"⟩, ⟨"M", "operator<"⟩,
  ⟨"N", "operator<="⟩, ⟨"O", "operator>"⟩, ⟨"P", "operator>="⟩, ⟨"Q", "operator,"⟩, ⟨"R", "operator()"⟩,
  ⟨"S", "operator~"⟩, ⟨"T", "operator^"⟩, ⟨"U", "operator|"⟩, ⟨"V", "operator&&"⟩, ⟨"W", "operator||"⟩,
  ⟨"X", "operator*="⟩, ⟨"Y", "operator+="⟩, ⟨"Z", "operator-="⟩, ⟨"_0", "operator/="⟩, ⟨"_1", "operator%="⟩,
  ⟨"_2", "operator>>="⟩, ⟨"_3", "operator<<="⟩, ⟨"_4", "operator&="⟩, ⟨"_5", "operator|="⟩, ⟨"_6", "operator^="⟩,
  ⟨"_7", "`vftable'"⟩, ⟨"_8", "`vbtable'"⟩, ⟨"_9", "`vcall'"⟩, ⟨"_A", "`typeof'"⟩, ⟨"_B", "`local static guard'"⟩,
  ⟨"_D", "`vbase destructor'"⟩, ⟨"_E", "`vector deleting destructor'"⟩, ⟨"_F", "`default constructor closure'"⟩,
  ⟨"_G", "`scalar deleting destructor'"⟩, ⟨"_H", "`vector constructor iterator'"⟩,
  ⟨"_I", "`vector destructor iterator'"⟩, ⟨"_J", "`vector vbase constructor iterator'"⟩,
  ⟨"_K", "`virtual displacement map'"⟩, ⟨"_L", "`eh vector constructor iterator'"⟩,
  ⟨"_M", "`eh vector destructor iterator'"⟩, ⟨"_N", "`eh vector vbase constructor iterator'"⟩,
  ⟨"_O", "`copy constructor closure'"⟩, ⟨"_R2", "`RTTI Base Class Array'"⟩, ⟨"_R3", "`RTTI Class Hierarchy Descriptor'"⟩,
  ⟨"_R4", "`RTTI Complete Object Locator'"⟩, ⟨"_S", "`local vftable'"⟩, ⟨"_T", "`local vftable constructor closure'"⟩,
  ⟨"_U", "operator new[]"⟩, ⟨"_V", "operator delete[]"⟩, ⟨"_X", "`placement delete closure'"⟩,
  ⟨"_Y", "`placement delete[] closure'"⟩, ⟨"__A", "`managed vector constructor iterator'"⟩,
  ⟨"__B", "`managed vector destructor iterator'"⟩, ⟨"__C", "`eh vector copy constructor iterator'"⟩,
  ⟨"__D", "`eh vector vbase copy constructor iterator'"⟩, ⟨"__G", "`vector copy constructor iterator'"⟩,
  ⟨"__H", "`vector vbase copy constructor iterator'"⟩, ⟨"__L", "operator co_await"⟩, ⟨"__M", "operator<=>"⟩]

/-- The basic types. -/
def basicTypes : List Word := [
  ⟨"X", "void"⟩, ⟨"C", "signed char"⟩, ⟨"D", "char"⟩, ⟨"E", "unsigned char"⟩, ⟨"F", "short"⟩, ⟨"G", "unsigned short"⟩,
  ⟨"H", "int"⟩, ⟨"I", "unsigned int"⟩, ⟨"J", "long"⟩, ⟨"K", "unsigned long"⟩, ⟨"M", "float"⟩, ⟨"N", "double"⟩,
  ⟨"O", "long double"⟩, ⟨"_N", "bool"⟩, ⟨"_J", "__int64"⟩, ⟨"_K", "unsigned __int64"⟩, ⟨"_L", "__int128"⟩,
  ⟨"_M", "unsigned __int128"⟩, ⟨"_W", "wchar_t"⟩, ⟨"_Q", "char8_t"⟩, ⟨"_S", "char16_t"⟩, ⟨"_U", "char32_t"⟩,
  ⟨"_D", "__int8"⟩, ⟨"_E", "unsigned __int8"⟩, ⟨"_F", "__int16"⟩, ⟨"_G", "unsigned __int16"⟩, ⟨"_H", "__int32"⟩,
  ⟨"_I", "unsigned __int32"⟩, ⟨"$$T", "std::nullptr_t"⟩]

/-- The kinds of types that have names. The kind of numbers that an enumeration has is not shown. -/
def namedKinds : List Word := [
  ⟨"T", "union"⟩, ⟨"U", "struct"⟩, ⟨"V", "class"⟩, ⟨"W0", "enum"⟩, ⟨"W1", "enum"⟩, ⟨"W2", "enum"⟩, ⟨"W3", "enum"⟩,
  ⟨"W4", "enum"⟩, ⟨"W5", "enum"⟩, ⟨"W6", "enum"⟩, ⟨"W7", "enum"⟩]

/-- The ways in which functions are called. -/
def conventions : List Word := [
  ⟨"A", "__cdecl"⟩, ⟨"B", "__cdecl"⟩, ⟨"C", "__pascal"⟩, ⟨"E", "__thiscall"⟩, ⟨"G", "__stdcall"⟩, ⟨"I", "__fastcall"⟩,
  ⟨"Q", "__vectorcall"⟩]

/-- The qualifiers of a type. -/
def qualifiers : List Word := [⟨"A", ""⟩, ⟨"B", " const"⟩, ⟨"C", " volatile"⟩, ⟨"D", " const volatile"⟩]

/-- The qualifiers of the target of a pointer to a member. -/
def memberQualifiers : List Word := [⟨"Q", ""⟩, ⟨"R", " const"⟩, ⟨"S", " volatile"⟩, ⟨"T", " const volatile"⟩]

/-- Pointers with their qualifiers, and references. -/
def pointers : List Word := [
  ⟨"P", "*"⟩, ⟨"Q", "* const"⟩, ⟨"R", "* volatile"⟩, ⟨"S", "* const volatile"⟩, ⟨"A", "&"⟩, ⟨"B", "& volatile"⟩,
  ⟨"$$Q", "&&"⟩, ⟨"$$R", "&& volatile"⟩]

/-- Where a variable lives. -/
def storages : List Word := [
  ⟨"0", "private: static "⟩, ⟨"1", "protected: static "⟩, ⟨"2", "public: static "⟩, ⟨"3", ""⟩, ⟨"4", ""⟩]

/-- How a function belongs to a class, if it does. -/
inductive Membership where
  /-- It is called on an object. -/
  | object
  /-- It is called on an object whose address is adjusted first. -/
  | adjustedObject
  /-- It is called on no object. -/
  | noObject
  deriving DecidableEq, Repr

/-- How a function may be reached and how it belongs to a class: the code, what is shown of it first, and what it decides. -/
structure Access where
  code : String
  text : String
  membership : Membership
  deriving DecidableEq, Repr

/-- The ways to reach functions, for near and for far calls. -/
def accesses : List Access := [
  ⟨"A", "private: ", .object⟩, ⟨"B", "private: ", .object⟩, ⟨"C", "private: static ", .noObject⟩,
  ⟨"D", "private: static ", .noObject⟩, ⟨"E", "private: virtual ", .object⟩, ⟨"F", "private: virtual ", .object⟩,
  ⟨"G", "[thunk]:private: virtual ", .adjustedObject⟩, ⟨"H", "[thunk]:private: virtual ", .adjustedObject⟩,
  ⟨"I", "protected: ", .object⟩, ⟨"J", "protected: ", .object⟩, ⟨"K", "protected: static ", .noObject⟩,
  ⟨"L", "protected: static ", .noObject⟩, ⟨"M", "protected: virtual ", .object⟩, ⟨"N", "protected: virtual ", .object⟩,
  ⟨"O", "[thunk]:protected: virtual ", .adjustedObject⟩, ⟨"P", "[thunk]:protected: virtual ", .adjustedObject⟩,
  ⟨"Q", "public: ", .object⟩, ⟨"R", "public: ", .object⟩, ⟨"S", "public: static ", .noObject⟩,
  ⟨"T", "public: static ", .noObject⟩, ⟨"U", "public: virtual ", .object⟩, ⟨"V", "public: virtual ", .object⟩,
  ⟨"W", "[thunk]:public: virtual ", .adjustedObject⟩, ⟨"X", "[thunk]:public: virtual ", .adjustedObject⟩, ⟨"Y", "", .noObject⟩,
  ⟨"Z", "", .noObject⟩]

end ExecImage.Mangled.Microsoft
