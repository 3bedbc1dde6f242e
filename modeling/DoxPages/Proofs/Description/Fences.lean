import DoxPages.Page.CodeBlock
import DoxPages.Proofs.Description.Behind
import DoxPages.Proofs.Text.Split
import DoxPages.Proofs.Text.Strip

/-!
# Fenced blocks

A block of code stands between two fences, and a reader takes the first line that closes the
fence (`ClosesFence`) for its end. A code block has a fence of four backticks if three stand in
the code; the fences of a verbatim text and of a listing have three, whatever stands in them.
Each block stays open exactly if no line of its code is a fence of that length itself:
`staysOpen_iff`.
-/

namespace DoxPages

open Text Output

/-- At most three spaces, at least `n` backticks, and then spaces only. -/
def ClosesFence (n : Nat) (line : List Char) : Prop :=
  ∃ indent ticks rest, indent ≤ 3 ∧ n ≤ ticks ∧
    line = List.replicate indent ' ' ++ List.replicate ticks '`' ++ List.replicate rest ' '

def innerLines (block : List Char) : List (List Char) := (splitChar '\n' block).tail.dropLast

def StaysOpen (n : Nat) (block : List Char) : Prop :=
  ∀ line ∈ innerLines block, ¬ClosesFence n line

/-! ## Lines that close a fence -/

section
variable {m n : Nat} {line cs : List Char}

theorem ClosesFence.mono (h : m ≤ n) (hline : ClosesFence n line) : ClosesFence m line := by
  obtain ⟨indent, ticks, rest, hindent, hticks, rfl⟩ := hline
  exact ⟨indent, ticks, rest, hindent, h.trans hticks, rfl⟩

theorem ClosesFence.ticks_isInfix (h : ClosesFence n line) : List.replicate n '`' <:+: line := by
  obtain ⟨indent, ticks, rest, -, hticks, rfl⟩ := h
  have hrun : List.replicate n '`' <:+: List.replicate ticks '`' := by
    rw [← Nat.add_sub_cancel' hticks, ← List.replicate_append_replicate]
    exact (List.prefix_append _ _).isInfix
  exact hrun.trans (List.infix_append _ _ _)

theorem ClosesFence.ne_nil (hn : 0 < n) (h : ClosesFence n line) : line ≠ [] := by
  rintro rfl
  have hnil := List.infix_nil.1 h.ticks_isInfix
  rw [List.replicate_eq_nil_iff] at hnil
  omega

theorem hasInfix_of_isInfix {part : List Char} (h : part <:+: cs) : hasInfix part cs = true := by
  induction cs with
  | nil =>
    rw [List.infix_nil.1 h]
    rfl
  | cons c cs ih =>
    rw [hasInfix, Bool.or_eq_true, List.isPrefixOf_iff_prefix]
    exact (List.infix_cons_iff.1 h).imp_right ih

/-! ## Lines of a block -/

/-- Between two fences stand the further lines of the info text and those of the code. -/
theorem innerLines_fenced {fence : List Char} (hfence : '\n' ∉ fence) (info code : List Char) :
    innerLines (fence ++ info ++ '\n' :: (code ++ '\n' :: fence)) =
      (splitChar '\n' info).tail ++ splitChar '\n' code := by
  have hhead : (splitChar '\n' (fence ++ info)).tail = (splitChar '\n' info).tail :=
    tail_splitChar_append hfence info
  rw [innerLines, splitChar_append_cons, splitChar_append_cons, splitChar_of_not_mem hfence,
    List.tail_append_of_ne_nil (splitChar_ne_nil _ _), hhead, ← List.append_assoc,
    List.dropLast_concat]

/-- A fence that starts no line of its own takes the last line of the code. -/
theorem innerLines_run {fence : List Char} (hfence : '\n' ∉ fence) (info code : List Char) :
    innerLines (fence ++ info ++ '\n' :: (code ++ fence)) =
      (splitChar '\n' info).tail ++ (splitChar '\n' code).dropLast := by
  obtain ⟨pieces, last, hcode⟩ := splitChar_append '\n' code
  have hcode' := hcode [] List.not_mem_nil
  have hhead : (splitChar '\n' (fence ++ info)).tail = (splitChar '\n' info).tail :=
    tail_splitChar_append hfence info
  rw [List.append_nil] at hcode'
  rw [innerLines, splitChar_append_cons, List.tail_append_of_ne_nil (splitChar_ne_nil _ _), hhead,
    hcode fence hfence, hcode', ← List.append_assoc, List.dropLast_concat, List.dropLast_concat]

end

/-! ## The three blocks -/

/-- Four backticks are enough for three: without three in the code no line closes either. -/
theorem closesFence_fenceFor_iff {code : String} {line : List Char}
    (hline : line <:+: code.toList) :
    ClosesFence (fenceFor code).length line ↔ ClosesFence 4 line := by
  unfold fenceFor
  split
  · exact Iff.rfl
  · rename_i hcode
    have hopen (n : Nat) (hn : 3 ≤ n) : ¬ClosesFence n line := fun hcloses =>
      hcode (hasInfix_of_isInfix ((hcloses.mono hn).ticks_isInfix.trans hline))
    exact iff_of_false (hopen _ (Nat.le_refl 3)) (hopen 4 (by decide))

theorem staysOpen_codeBlock_iff (language code : String) :
    StaysOpen (fenceFor code).length (codeBlock language code).toList ↔
      (∀ line ∈ (splitChar '\n' language.toList).tail, ¬ClosesFence (fenceFor code).length line) ∧
        ∀ line ∈ splitChar '\n' (stripRight code.toList), ¬ClosesFence 4 line := by
  have hfence : '\n' ∉ (fenceFor code).toList := by
    unfold fenceFor
    split <;> decide
  have hblock : (codeBlock language code).toList = (fenceFor code).toList ++ language.toList ++
      '\n' :: (stripRight code.toList ++ '\n' :: (fenceFor code).toList) := by
    simp [codeBlock]
  rw [StaysOpen, hblock, innerLines_fenced hfence, List.forall_mem_append]
  refine and_congr_right fun _ => forall₂_congr fun line hline => not_congr ?_
  exact closesFence_fenceFor_iff
    ((infix_of_mem_splitChar hline).trans (trimRight_isPrefix isBlank code.toList).isInfix)

section
variable (attrs : List (String × String)) (children : List Node) (cx : Context) (index : Nat)
  (out : Output)

def verbatimBlock (text : String) : String :=
  "```\n" ++ onChars (trim (· == '\n')) text ++ "\n```"

theorem text_render_verbatim :
    ((Node.element "verbatim" attrs children).render cx index out).text =
      out.text ++ "\n" ++ verbatimBlock (Node.element "verbatim" attrs children).textContent ++
        "\n" := by
  have hrule : Rule.ofTag? "verbatim" = some .verbatim := by decide
  rw [Node.render, hrule]
  simp only [Rule.render, text_write, verbatimBlock, String.append_assoc]
  rfl

def listingBlock (language content : String) : String :=
  "```" ++ language ++ "\n" ++ content ++ "```"

theorem text_render_listing :
    ((Node.element "programlisting" attrs children).render cx index out).text =
      out.text ++ "\n" ++
        listingBlock (Rule.listingLanguage
            ((Node.element "programlisting" attrs children).attr "filename"))
          (renderAll { cx with inCode := true } 0 children {}).text ++ "\n" := by
  generalize hlanguage : Rule.listingLanguage
    ((Node.element "programlisting" attrs children).attr "filename") = language
  have hrender : (Node.element "programlisting" attrs children).render cx index out =
      (renderAll { cx with inCode := true } 0 children
        (out.write ("\n```" ++ language ++ "\n"))).write "```\n" := by
    have hrule : Rule.ofTag? "programlisting" = some .listing := by decide
    rw [Node.render, hrule, ← hlanguage]
    rfl
  have hfirm : Firm (out.write ("\n```" ++ language ++ "\n")).fragments := by
    refine firm_write (fun h => ?_) (fun h => ?_) out
    · simpa using congrArg String.toList h
    · simpa using congrArg (fun s => s.toList.head?) h
  have hopening : "\n```" = "\n" ++ "```" := rfl
  have hclosing : "```\n" = "```" ++ "\n" := rfl
  rw [hrender, text_write, text_renderAll_of_firm hfirm, text_write, listingBlock, hopening,
    hclosing]
  simp only [String.append_assoc]

end

theorem staysOpen_verbatimBlock_iff (text : String) :
    StaysOpen 3 (verbatimBlock text).toList ↔
      ∀ line ∈ splitChar '\n' text.toList, ¬ClosesFence 3 line := by
  have hblock : (verbatimBlock text).toList = ['`', '`', '`'] ++ [] ++
      '\n' :: (trim (· == '\n') text.toList ++ '\n' :: ['`', '`', '`']) := by
    simp [verbatimBlock]
  rw [StaysOpen, hblock, innerLines_fenced (by decide)]
  refine forall_congr' fun line => ?_
  by_cases hline : line = []
  · have hopen : ¬ClosesFence 3 line := fun hcloses => hcloses.ne_nil (by decide) hline
    exact iff_of_true (fun _ => hopen) (fun _ => hopen)
  · exact imp_congr_left (mem_splitChar_trim_iff hline)

theorem staysOpen_listingBlock_iff (language content : String) :
    StaysOpen 3 (listingBlock language content).toList ↔
      (∀ line ∈ (splitChar '\n' language.toList).tail, ¬ClosesFence 3 line) ∧
        ∀ line ∈ (splitChar '\n' content.toList).dropLast, ¬ClosesFence 3 line := by
  have hblock : (listingBlock language content).toList =
      ['`', '`', '`'] ++ language.toList ++ '\n' :: (content.toList ++ ['`', '`', '`']) := by
    simp [listingBlock]
  rw [StaysOpen, hblock, innerLines_run (by decide), List.forall_mem_append]

/-- A code block stays open exactly if no line of its code is a fence of four backticks, a
verbatim text and a listing exactly if none is one of three. Of an info text only further lines
could be fences too; the last line of a listing's content runs into its closing fence. -/
theorem staysOpen_iff (language code : String) (attrs : List (String × String))
    (children : List Node) (cx : Context) (index : Nat) (out : Output) :
    let verbatim := Node.element "verbatim" attrs children
    let text := verbatim.textContent
    let listing := Node.element "programlisting" attrs children
    let info := Rule.listingLanguage (listing.attr "filename")
    let content := (renderAll { cx with inCode := true } 0 children {}).text
    (StaysOpen (fenceFor code).length (codeBlock language code).toList ↔
      (∀ line ∈ (splitChar '\n' language.toList).tail,
        ¬ClosesFence (fenceFor code).length line) ∧
      ∀ line ∈ splitChar '\n' (stripRight code.toList), ¬ClosesFence 4 line) ∧
    ((verbatim.render cx index out).text = out.text ++ "\n" ++ verbatimBlock text ++ "\n" ∧
      (StaysOpen 3 (verbatimBlock text).toList ↔
        ∀ line ∈ splitChar '\n' text.toList, ¬ClosesFence 3 line)) ∧
    (listing.render cx index out).text =
        out.text ++ "\n" ++ listingBlock info content ++ "\n" ∧
      (StaysOpen 3 (listingBlock info content).toList ↔
        (∀ line ∈ (splitChar '\n' info.toList).tail, ¬ClosesFence 3 line) ∧
        ∀ line ∈ (splitChar '\n' content.toList).dropLast, ¬ClosesFence 3 line) :=
  ⟨staysOpen_codeBlock_iff language code,
    ⟨text_render_verbatim attrs children cx index out, staysOpen_verbatimBlock_iff _⟩,
    ⟨text_render_listing attrs children cx index out, staysOpen_listingBlock_iff _ _⟩⟩

/-- A fence inside a block closes it: four backticks in code, three in the others. -/
theorem not_staysOpen_innerFence :
    (¬∀ language code : String,
      StaysOpen (fenceFor code).length (codeBlock language code).toList) ∧
    (¬∀ attrs children cx index (block : String),
      ((Node.element "verbatim" attrs children).render cx index {}).text =
        "\n" ++ block ++ "\n" → StaysOpen 3 block.toList) ∧
    ¬∀ attrs children cx index (block : String),
      ((Node.element "programlisting" attrs children).render cx index {}).text =
        "\n" ++ block ++ "\n" → StaysOpen 3 block.toList := by
  refine ⟨fun h => ?_, fun h => ?_, fun h => ?_⟩
  · exact h "cpp" "````" ['`', '`', '`', '`'] (by decide) ⟨0, 4, 0, by decide, by decide, rfl⟩
  · exact h [] [.text "```"] {} 0 "```\n```\n```" (by decide) ['`', '`', '`'] (by decide)
      ⟨0, 3, 0, by decide, by decide, rfl⟩
  · exact h [] [.element "codeline" [] [.text "```"]] {} 0 "```cpp\n```\n```" (by decide)
      ['`', '`', '`'] (by decide) ⟨0, 3, 0, by decide, by decide, rfl⟩

end DoxPages
