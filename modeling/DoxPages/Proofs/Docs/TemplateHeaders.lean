import DoxPages.Docs.Prototype
import DoxPages.Proofs.Text.Words

/-!
# Names in template headers

A parameter is written as its type, its name and its default. The name is left out where
the text of the type ends as the name does, so it is shown unless it is swallowed by a
longer word: a parameter `int t` is written `int`.
-/

namespace DoxPages.Source

open Text

namespace Param

def typeText (p : Param) : String := (plainType p.type).value

def defaultText (p : Param) : String :=
  let value := (p.defval.map fun value => (plainType value).value).getD ""
  if value = "" then "" else " = " ++ value

/-- The text of the type ends with a longer word that ends as the name does. -/
def Swallowed (p : Param) : Prop := EndsInLonger p.declname.toList p.typeText.toList

def headText (p : Param) : String :=
  if p.declname ≠ "" ∧ ¬ p.declname.toList.isSuffixOf p.typeText.toList then
    p.typeText ++ " " ++ p.declname
  else p.typeText

theorem value_text (p : Param) : p.text.value = p.headText ++ p.defaultText := by
  rw [text, Reported.value_bind, defaultText, headText, typeText]
  cases p.defval with
  | none => exact String.append_empty.symm
  | some value =>
    rw [Reported.value_bind, Reported.value_pure, Option.map_some, Option.getD_some]
    split
    · exact String.append_empty.symm
    · exact String.append_assoc ..

/-- In front of its default a parameter shows its name unless the type swallows it. -/
theorem endsInWord_headText (p : Param) (hname : p.declname ≠ "") :
    EndsInWord p.declname.toList p.headText.toList ↔ ¬ p.Swallowed := by
  unfold headText
  split
  · rename_i hadded
    have hnot : ¬ p.Swallowed := fun h => hadded.2 (List.isSuffixOf_iff_suffix.2 h.suffix)
    have hspace := endsInWord_space p.declname.toList p.typeText.toList
    refine iff_of_true ?_ hnot
    rw [String.toList_append, String.toList_append, List.append_assoc]
    exact hspace
  · rename_i hkept
    refine endsInWord_iff_of_suffix (List.isSuffixOf_iff_suffix.1 ?_)
    by_contra h
    exact hkept ⟨hname, h⟩

end Param

/-- In a template header every name stands behind its type as a word of its own, unless the
type ends with a longer word that ends as the name does. -/
theorem templateHeader_shows_iff (ps : List Param) :
    (templateHeader ps).value =
      "template<" ++ joinWith ", " (ps.map fun p => p.text.value) ++ ">" ∧
    ∀ p ∈ ps, p.declname ≠ "" → ∃ head : String, p.text.value = head ++ p.defaultText ∧
      (EndsInWord p.declname.toList head.toList ↔ ¬ p.Swallowed) := by
  refine ⟨?_, fun p _ hname => ⟨p.headText, p.value_text, p.endsInWord_headText hname⟩⟩
  rw [templateHeader, Reported.value_bind, Reported.value_pure, Reported.value_each]

def plainParam (type name : String) (value : Option String) : Param where
  type := .element "type" [] [.text type]
  declname := name
  defval := value.map fun value => .element "defval" [] [.text value]

theorem templateHeader_shows_iff_typename :
    plainParam "typename" "T" (some "int") ∈ [plainParam "typename" "T" (some "int")] ∧
      ∃ head : String,
        (plainParam "typename" "T" (some "int")).text.value =
          head ++ (plainParam "typename" "T" (some "int")).defaultText ∧
        EndsInWord "T".toList head.toList := by
  have hmem : plainParam "typename" "T" (some "int") ∈ [plainParam "typename" "T" (some "int")] :=
    List.mem_singleton_self _
  obtain ⟨head, htext, hshown⟩ := (templateHeader_shows_iff _).2 _ hmem (by decide)
  have hnot : ¬ (plainParam "typename" "T" (some "int")).Swallowed := by
    intro h
    have hsuffix := EndsInLonger.suffix h
    revert hsuffix
    decide +kernel
  exact ⟨hmem, head, htext, hshown.2 hnot⟩

/-- The name of a parameter `int t` is missing: the type ends with its letter. -/
theorem not_templateHeader_shows_intT : ¬ ∀ (ps : List Param), ∀ p ∈ ps,
    IsIdentifier p.declname.toList → ∃ head : String, p.text.value = head ++ p.defaultText ∧
      EndsInWord p.declname.toList head.toList := by
  intro h
  have hname : IsIdentifier (plainParam "int" "t" none).declname.toList := by decide
  obtain ⟨head, htext, hshown⟩ := h [plainParam "int" "t" none] _ (List.mem_singleton_self _) hname
  have hint : (plainParam "int" "t" none).text.value = "int" := by decide +kernel
  have hnone : (plainParam "int" "t" none).defaultText = "" := by decide +kernel
  rw [hint, hnone, String.append_empty] at htext
  rw [← htext] at hshown
  exact (endsInWord_iff_of_suffix (by decide)).1 hshown ⟨['i'], 'n', by decide, by decide⟩

end DoxPages.Source
