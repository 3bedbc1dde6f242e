import DoxPages.Text.Basic

/-!
# Settings that cannot be used

Some settings do not fit the input; that is an error with a message. Others have a shape that
nothing is prepared for.
-/

namespace DoxPages

open Text

inductive ConfigError where
  | unknownSectionKind (kind : String)
  /-- Two compounds claim one page. -/
  | pageTaken (page first second : String)
  /-- Entries of a link table that are no addresses. -/
  | badAddresses (table : String) (names : List String)
  deriving DecidableEq, Repr

namespace ConfigError

def message : ConfigError → String
  | unknownSectionKind kind => s!"Unknown section kind '{kind}'"
  | pageTaken page first second =>
    s!"Document id '{page}' is used by both {first} and {second}" ++
      if first.toList.contains '<' || second.toList.contains '<' then
        "; Doxygen documents each template specialization as a separate compound"
      else ""
  | badAddresses table names => s!"{table}: non-string URLs for " ++ joinWith ", " names

end ConfigError

/-- A setting, or a part of one, whose shape is not expected. -/
inductive ShapeError where
  /-- Names are looked up in what is no mapping. -/
  | noMapping (field : String)
  /-- What is gone through holds nothing one by one. -/
  | noItems (field : String)
  /-- An entry is not made of two things. -/
  | noPair (field : String)
  /-- A list, a mapping or a set is to be a key. -/
  | noKey (field : String)
  /-- A message has to name a key that is no text. -/
  | noName (field : String)
  /-- A text is wanted; something else is kept until it is used. -/
  | noText (field : String)
  deriving DecidableEq, Repr

end DoxPages
