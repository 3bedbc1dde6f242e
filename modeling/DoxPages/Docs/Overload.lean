/-!
# Overload names

Members are grouped under a display name: the constructors of a type, its
destructor, a configured name, or the member's own name.
-/

namespace DoxPages

def constructorName : String := "(constructor)"

def destructorName : String := "(destructor)"

def defaultRenames : List (String × String) := [
  ("operator=", "assignment operator="),
  ("operator==", "equal operator=="),
  ("operator!=", "not equal operator!="),
  ("operator[]", "subscript operator[]")]

/-- The name under which a member is grouped with its overloads. -/
def overloadName (renames : List (String × String)) (member type : String) : String :=
  if member = type then constructorName
  else if member = "~" ++ type then destructorName
  else (renames.lookup member).getD member

end DoxPages
