import DoxPages.Assoc
import DoxPages.Proofs.Links.Edits
import DoxPages.Proofs.Text.Words

/-!
# Links and code spans the linker writes

A mark is sealed if what is written for it is read as a link or code span again: no bracket
ends its label, no parenthesis or blank its address, and no backtick or line feed its code.
With clean addresses the linker seals every mark that is tidy.
-/

namespace DoxPages

open Text

/-! ## Addresses -/

/-- The address can stand behind a label: no blank and no parenthesis ends it. -/
def IsTarget (cs : List Char) : Prop := ∀ c ∈ cs, c ≠ ')' ∧ isBlank c = false

instance : DecidablePred IsTarget := fun cs =>
  List.decidableBAll (fun c => c ≠ ')' ∧ isBlank c = false) cs

theorem isTarget_append {cs ds : List Char} : IsTarget (cs ++ ds) ↔ IsTarget cs ∧ IsTarget ds :=
  List.forall_mem_append

namespace LinkTable

def Clean (t : LinkTable) : Prop := ∀ page ∈ t.pages, IsTarget (t.base ++ page.2).toList

instance : DecidablePred Clean := fun t =>
  List.decidableBAll (fun page : String × String => IsTarget (t.base ++ page.2).toList) t.pages

theorem Clean.isTarget {t : LinkTable} (h : t.Clean) {name url : String}
    (hurl : t.url? name = some url) : IsTarget url.toList := by
  obtain ⟨page, hpage, rfl⟩ := Option.map_eq_some_iff.1 hurl
  exact h (name, page) (Assoc.mem_of_lookup hpage)

theorem clean_cppReference : cppReference.Clean := by
  intro page hpage
  have hbase : IsTarget cppReference.base.toList := by decide +kernel
  have hpages : ∀ page ∈ cppReference.pages, IsTarget page.2.toList := by decide +kernel
  rw [String.toList_append, isTarget_append]
  exact ⟨hbase, hpages page hpage⟩

end LinkTable

namespace Text

theorem isTarget_of_word {cs : List Char} (h : ∀ c ∈ cs, isWord c = true) : IsTarget cs := by
  intro c hc
  refine ⟨?_, isBlank_of_isWord (h c hc)⟩
  rintro rfl
  exact absurd (h ')' hc) (by decide)

end Text

/-! ## Labels -/

def isLabelChar (c : Char) : Bool := c ≠ ']' && c ≠ '\n'

/-- Behind an opening bracket, the text goes on with a label and opens an address. -/
def closesLabel (cs : List Char) : Bool := [']', '('].isPrefixOf (cs.dropWhile isLabelChar)

theorem isLabelChar_iff {c : Char} : isLabelChar c = true ↔ c ≠ ']' ∧ c ≠ '\n' := by
  simp [isLabelChar]

theorem closesLabel_append {label : List Char} (h : ∀ c ∈ label, isLabelChar c = true)
    (cs : List Char) : closesLabel (label ++ cs) = closesLabel cs := by
  rw [closesLabel, List.dropWhile_append_of_pos h]
  rfl

theorem closesLabel_of_stop {c : Char} (h : isLabelChar c = false) (cs : List Char) :
    closesLabel (c :: cs) = [']', '('].isPrefixOf (c :: cs) := by
  rw [closesLabel, List.dropWhile_cons, h]
  rfl

namespace IsGuard

variable {guard : List Char}

theorem isLabelChar_getLast? (h : IsGuard guard) : ∀ c ∈ guard.getLast?, isLabelChar c = true := by
  intro c hc
  cases h with
  | @link label target _ _ =>
    have happend : '[' :: (label ++ ']' :: '(' :: (target ++ [')'])) =
        '[' :: (label ++ ']' :: '(' :: target) ++ [')'] := by simp
    rw [happend, List.getLast?_concat] at hc
    obtain rfl := Option.some.inj hc
    decide
  | @code code _ =>
    rw [← List.cons_append, List.getLast?_concat] at hc
    obtain rfl := Option.some.inj hc
    decide

/-- A label that does not go on through a guard ends inside of it. -/
theorem closesLabel_eq (h : IsGuard guard) (hlabel : ¬ ∀ c ∈ guard, isLabelChar c = true)
    (cs ds : List Char) : closesLabel (guard ++ cs) = closesLabel (guard ++ ds) := by
  obtain ⟨label, rest, rfl, -, -, hchars, hstop⟩ := exists_run isLabelChar guard
  rw [List.append_assoc, List.append_assoc, closesLabel_append hchars, closesLabel_append hchars]
  match rest with
  | [] => exact absurd (by simpa using hchars) hlabel
  | [c] =>
    -- a guard does not end with the character that ends the label
    have hlast := h.isLabelChar_getLast? c List.getLast?_concat
    rw [hstop c rfl] at hlast
    cases hlast
  | c :: d :: rest =>
    have hc : isLabelChar c = false := hstop c rfl
    simp only [List.cons_append, closesLabel_of_stop hc]
    rfl

end IsGuard

/-! ## Marks -/

namespace Mark

def isTidy : Mark → Bool
  | link label _ => ']' ∉ label
  | code text => '`' ∉ text && '\n' ∉ text

def Sealed : Mark → Prop
  | link label url => (∀ c ∈ label, isLabelChar c = true) ∧ IsTarget url.toList
  | code text => ∀ c ∈ text, c ≠ '`' ∧ c ≠ '\n'

theorem written_link (label : List Char) (url : String) : (link label url).written =
    '[' :: ('`' :: (label ++ ['`']) ++ ']' :: '(' :: (url.toList ++ [')'])) := by
  simp [written, codeLink]

theorem Sealed.label_chars {label : List Char} {url : String} (h : (link label url).Sealed) :
    ∀ c ∈ '`' :: (label ++ ['`']), isLabelChar c = true := by
  intro c hc
  rw [List.mem_cons, List.mem_append, List.mem_singleton] at hc
  rcases hc with rfl | hc | rfl
  · decide
  · exact h.1 c hc
  · decide

theorem Sealed.isGuard {m : Mark} (h : m.Sealed) : IsGuard m.written := by
  cases m with
  | link label url =>
    rw [written_link]
    exact .link (fun c hc => isLabelChar_iff.1 (h.label_chars c hc)) h.2
  | code text => exact .code h

/-- A link ends the label that a bracket opened earlier. -/
theorem Sealed.isGuard_behind {front label : List Char} {url : String}
    (h : (link label url).Sealed) (hfront : ∀ c ∈ front, isLabelChar c = true) :
    IsGuard ('[' :: (front ++ (link label url).written)) := by
  have happend : front ++ (link label url).written = front ++ '[' :: '`' :: (label ++ ['`']) ++
      ']' :: '(' :: (url.toList ++ [')']) := by
    rw [written_link, List.append_assoc]
    rfl
  rw [happend]
  refine .link (fun c hc => isLabelChar_iff.1 ?_) h.2
  rw [List.mem_append, List.mem_cons] at hc
  rcases hc with hc | rfl | hc
  · exact hfront c hc
  · decide
  · exact h.label_chars c hc

end Mark

namespace Suffix

theorem isTarget_url {table : LinkTable} {typeUrl : String} (htype : IsTarget typeUrl.toList)
    {suffix : Suffix} (hwell : suffix.WellFormed) (hlabel : ']' ∉ suffix.text) :
    IsTarget (suffix.url table typeUrl).toList := by
  cases suffix with
  | subscript => exact absurd (by decide) hlabel
  | call member =>
    show IsTarget (typeUrl ++ "/" ++ String.ofList member).toList
    simp only [String.toList_append, String.toList_ofList, isTarget_append]
    exact ⟨⟨htype, by decide⟩, isTarget_of_word hwell.2⟩

theorem lineFeed_not_mem_text {suffix : Suffix} (h : suffix.WellFormed) : '\n' ∉ suffix.text := by
  cases suffix with
  | subscript => decide
  | call member =>
    have hmember : '\n' ∉ member := fun hmem => absurd (h.2 _ hmem) (by decide)
    simpa [text_call] using hmember

end Suffix

/-! ## Parts -/

namespace Part

def marks : Part → List Mark
  | edit label url more => .link label url :: more
  | _ => []

/-- In a linked text, the part is read as it was written. -/
def Sealed : Part → Prop
  | guard cs => IsGuard cs
  | p => ∀ m ∈ p.marks, m.Sealed

end Part

/-! ## What the linker writes -/

theorem isLabelChar_of_not_mem {label : List Char} (hbracket : ']' ∉ label)
    (hline : '\n' ∉ label) : ∀ c ∈ label, isLabelChar c = true := by
  intro c hc
  rw [isLabelChar_iff]
  constructor
  · rintro rfl
    exact hbracket hc
  · rintro rfl
    exact hline hc

namespace StdName

variable {before behind : List Char} {s : StdName} {url : String}

theorem Occurs.lineFeed_not_mem_name (h : Occurs before s behind) : '\n' ∉ s.name := by
  obtain ⟨word, -, hword, hname⟩ := h.name
  rw [hname, List.mem_append, not_or]
  exact ⟨by decide, fun hmem => absurd (hword _ hmem) (by decide)⟩

theorem Occurs.sealed_suffix (h : Occurs before s behind) (table : LinkTable)
    (hurl : IsTarget url.toList) (hlabel : ']' ∉ s.suffixText) : '\n' ∉ s.suffixText ∧
      IsTarget ((s.suffix.map (Suffix.url table url)).getD url).toList := by
  have hbehind := h.suffix
  unfold suffixText at hlabel ⊢
  cases hsuffix : s.suffix with
  | none => exact ⟨List.not_mem_nil, hurl⟩
  | some suffix =>
    rw [hsuffix] at hbehind hlabel
    exact ⟨Suffix.lineFeed_not_mem_text hbehind, Suffix.isTarget_url hurl hbehind hlabel⟩

theorem Occurs.sealed_edit (h : Occurs before s behind) (table : LinkTable)
    (hurl : IsTarget url.toList) :
    ∀ m ∈ (s.edit table url).marks, m.isTidy = true → m.Sealed := by
  have hname := h.lineFeed_not_mem_name
  unfold edit
  intro m hm htidy
  split at hm
  · rename_i hargs
    obtain rfl := List.mem_singleton.1 hm
    have hlabel : ']' ∉ s.text := of_decide_eq_true htidy
    have htext : s.text = s.name ++ s.suffixText := by simp [text, hargs]
    rw [htext] at hlabel ⊢
    obtain ⟨hline, htarget⟩ := h.sealed_suffix table hurl fun hmem =>
      hlabel (List.mem_append_right _ hmem)
    refine ⟨isLabelChar_of_not_mem hlabel ?_, htarget⟩
    rw [List.mem_append, not_or]
    exact ⟨hname, hline⟩
  · rcases List.mem_cons.1 hm with rfl | hm
    · exact ⟨isLabelChar_of_not_mem (of_decide_eq_true htidy) hname, hurl⟩
    rcases List.mem_cons.1 hm with rfl | hm
    · obtain ⟨hquote, hline⟩ : '`' ∉ s.args ∧ '\n' ∉ s.args := by simpa [Mark.isTidy] using htidy
      intro c hc
      exact ⟨fun heq => hquote (heq ▸ hc), fun heq => hline (heq ▸ hc)⟩
    · cases hsuffix : s.suffix with
      | none =>
        rw [hsuffix] at hm
        cases hm
      | some suffix =>
        rw [hsuffix] at hm
        obtain rfl := List.mem_singleton.1 hm
        have hlabel : ']' ∉ suffix.text := of_decide_eq_true htidy
        have htext : s.suffixText = suffix.text := by simp [suffixText, hsuffix]
        obtain ⟨hline, htarget⟩ := h.sealed_suffix table hurl (htext ▸ hlabel)
        rw [htext] at hline
        rw [hsuffix] at htarget
        exact ⟨isLabelChar_of_not_mem hlabel hline, htarget⟩

end StdName

namespace Linker

variable {l : Linker}

theorem sealed_parts (hstd : l.std.Clean) (hidl : l.idl.Clean) {cs : List Char} {p : Part}
    (hp : p ∈ l.parts cs) (htidy : ∀ m ∈ p.marks, m.isTidy = true) : p.Sealed := by
  rcases Split.mem_collect hp with ⟨piece, -, hp⟩ | ⟨guard, hguard, hp⟩
  · rcases Split.mem_collect hp with ⟨gap, -, hp⟩ | ⟨s, hs, hp⟩
    · rcases Split.mem_collect hp with ⟨word, -, hp⟩ | ⟨a, ha, hp⟩
      · obtain ⟨c, -, rfl⟩ := List.mem_map.1 hp
        exact nofun
      · obtain ⟨before, behind, name, member, rfl, hoccurs⟩ :=
          ((identifiers_foundBy l.idl).leftmost_split [] gap).2.exists_occurs ha
        unfold IdlName.parts at hp
        split at hp
        · rename_i url hurl
          obtain rfl := List.mem_singleton.1 hp
          intro m hm
          obtain rfl := List.mem_singleton.1 hm
          have hlabel : ']' ∉ name ++ member := hoccurs.not_mem (by decide)
          exact ⟨isLabelChar_of_not_mem hlabel (hoccurs.not_mem (by decide)), hidl.isTarget hurl⟩
        · obtain ⟨c, -, rfl⟩ := List.mem_map.1 hp
          exact nofun
    · obtain rfl := List.mem_singleton.1 hp
      obtain ⟨before, behind, hoccurs, hpage⟩ :=
        ((stdNames_foundBy l.std).leftmost_split [] piece).2.exists_occurs hs
      have hmarks := hoccurs.sealed_edit l.std
        (hstd.isTarget (LinkTable.url?_eq_some_iff.2 hpage))
      obtain ⟨label, url, more, hedit⟩ := s.1.edit_eq l.std s.2
      rw [hedit] at htidy hmarks ⊢
      exact fun m hm => hmarks m hm (htidy m hm)
  · obtain rfl := List.mem_singleton.1 hp
    obtain ⟨before, behind, hoccurs⟩ := (guards_foundBy.leftmost_split [] cs).2.exists_occurs hguard
    exact hoccurs

end Linker

end DoxPages
