/-!
# Link tables

A link table sends type names to addresses: each name has a page, and all pages
share an address in front of them. Operators have pages below that of their type.
-/

namespace DoxPages

/-- Names, sometimes several times; the first entry of a name counts. -/
structure LinkTable where
  base : String := ""
  pages : List (String × String) := []
  operators : List (String × String) := []
  deriving DecidableEq, Repr, Inhabited

namespace LinkTable

/-- The address of a name, if it is linked. -/
def url? (t : LinkTable) (name : String) : Option String :=
  (t.pages.lookup name).map (t.base ++ ·)

/-- The C++ standard library as documented at cppreference.com. -/
def cppReference : LinkTable where
  base := "https://en.cppreference.com/w/cpp/"
  pages := [
    ("std::array", "container/array"),
    ("std::function", "utility/functional/function"),
    ("std::initializer_list", "utility/initializer_list"),
    ("std::less", "utility/functional/less"),
    ("std::map", "container/map"),
    ("std::optional", "utility/optional"),
    ("std::pair", "utility/pair"),
    ("std::shared_ptr", "memory/shared_ptr"),
    ("std::string", "string/basic_string"),
    ("std::string_view", "string/basic_string_view"),
    ("std::tuple", "utility/tuple"),
    ("std::unique_ptr", "memory/unique_ptr"),
    ("std::unordered_map", "container/unordered_map"),
    ("std::variant", "utility/variant"),
    ("std::vector", "container/vector"),
    ("std::wstring", "string/basic_string"),
    ("std::wstring_view", "string/basic_string_view")]
  operators := [("operator[]", "operator_at")]

end LinkTable

end DoxPages
