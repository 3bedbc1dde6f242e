import DoxPages.Links.Linker

/-!
# Linking keeps every character

A find takes a stretch of the text as it stands, and its link shows that stretch
in code spans. So a linked text is the text with characters put in between.
-/

namespace DoxPages

open Text

namespace Text.Split

variable {α : Type}

theorem sublist_write {f : List Char → List Char} {text g : α → List Char}
    (hf : ∀ gap : List Char, gap.Sublist (f gap)) (hg : ∀ a, (text a).Sublist (g a)) (s : Split α) :
    (s.write id text).Sublist (s.write f g) := by
  induction s with
  | last gap => exact hf gap
  | hit gap found rest ih => exact ((hf gap).append (hg found)).append ih

end Text.Split

/-- A scan whose finds take what they show keeps the text if its links do. -/
theorem sublist_write_split {α : Type} {find : Finder α} {f : List Char → List Char}
    {text g : α → List Char} (ht : ∀ prev cs a n, find prev cs = some (a, n) → text a = cs.take n)
    (hf : ∀ gap : List Char, gap.Sublist (f gap)) (hg : ∀ a, (text a).Sublist (g a))
    (prev : Option Char) (cs : List Char) : cs.Sublist ((split find prev cs).write f g) := by
  have h := (split find prev cs).sublist_write hf hg
  rwa [split_write find text ht] at h

theorem sublist_codeLink (label target : String) :
    label.toList.Sublist (codeLink label target).toList := by
  simp only [codeLink, String.toList_append, List.append_assoc]
  exact (List.sublist_append_left ..).trans (List.sublist_append_right ..)

/-! ## Generated types -/

theorem memberBehind_prefix (cs : List Char) : memberBehind cs <+: cs := by
  unfold memberBehind
  split
  · rename_i cs
    have hspan := spanWord_append cs
    generalize spanWord cs = p at hspan
    obtain ⟨member, rest⟩ := p
    simp only at hspan ⊢
    split
    · exact List.nil_prefix
    · rename_i rest _
      exact ⟨rest, by rw [← hspan]; simp⟩
    · exact ⟨rest, by rw [← hspan]; simp⟩
  · exact List.nil_prefix

theorem IdlName.text_of_find {table : LinkTable} {prev : Option Char} {cs : List Char}
    {a : IdlName} {n : Nat} (h : IdlName.find table prev cs = some (a, n)) :
    a.text = cs.take n := by
  have hspan := spanWord_append cs
  unfold IdlName.find at h
  generalize spanWord cs = p at h hspan
  obtain ⟨name, behind⟩ := p
  split at h
  · cases h
  · split at h
    · cases h
    · rename_i heq
      cases heq
      cases h
      obtain ⟨rest, hrest⟩ := memberBehind_prefix behind
      have hprefix : name ++ memberBehind behind <+: cs := ⟨rest, by
        rw [List.append_assoc, hrest]; exact hspan⟩
      exact List.prefix_iff_eq_take.1 hprefix

theorem IdlName.sublist_link (a : IdlName) : a.text.Sublist a.link := by
  unfold IdlName.link
  split
  · have h := sublist_codeLink (String.ofList a.text) ‹_›
    rwa [String.toList_ofList] at h
  · exact List.Sublist.refl _

theorem Linker.sublist_linkIdl (l : Linker) (cs : List Char) : cs.Sublist (l.linkIdl cs) :=
  sublist_write_split (fun _ _ _ _ h => IdlName.text_of_find h) (fun gap => List.Sublist.refl gap)
    IdlName.sublist_link none cs

/-! ## The standard library -/

theorem Suffix.text_prefix {cs : List Char} {s : Suffix} (h : Suffix.ofChars? cs = some s) :
    s.text <+: cs := by
  unfold Suffix.ofChars? at h
  split at h
  · rename_i cs
    split at h
    · rename_i hop
      cases h
      obtain ⟨rest, rfl⟩ := List.isPrefixOf_iff_prefix.1 hop
      exact ⟨rest, by simp only [Suffix.text_subscript, List.cons_append, List.nil_append]⟩
    · have hspan := spanWord_append cs
      generalize spanWord cs = p at h hspan
      obtain ⟨member, rest⟩ := p
      simp only at h hspan
      split at h
      · cases h
        rename_i tail
        exact ⟨tail, by rw [← hspan, Suffix.text_call]; simp⟩
      · cases h
  · cases h

theorem StdName.name_prefix {prev : Option Char} {cs name : List Char}
    (h : StdName.name? prev cs = some name) : name <+: cs := by
  unfold StdName.name? at h
  split at h
  · cases h
  · split at h
    · rename_i hstd
      have hsplit := List.prefix_iff_eq_append.1 (List.isPrefixOf_iff_prefix.1 hstd)
      split at h
      · cases h
      · obtain rfl := Option.some.inj h
        rw [← hsplit, List.prefix_append_right_inj]
        exact List.takeWhile_prefix _
    · cases h

theorem StdName.text_of_find {table : LinkTable} {prev : Option Char} {cs : List Char}
    {a : StdName × String} {n : Nat} (h : StdName.find table prev cs = some (a, n)) :
    a.1.text = cs.take n := by
  simp only [StdName.find, Option.bind_eq_bind, Option.bind_eq_some_iff, Option.pure_def,
    Option.some.injEq, Prod.mk.injEq] at h
  obtain ⟨name, hname, url, -, rfl, rfl⟩ := h
  obtain ⟨behind, rfl⟩ := StdName.name_prefix hname
  refine List.prefix_iff_eq_take.1 ?_
  rw [List.drop_left]
  generalize (TemplateArgs.length? behind).getD 0 = k
  -- the suffix is read behind the arguments, so it is a prefix of what they leave
  have hsuffix : ∀ rest, ((Suffix.ofChars? rest).map Suffix.text).getD [] <+: rest := by
    intro rest
    cases hs : Suffix.ofChars? rest with
    | none => exact List.nil_prefix
    | some s => exact Suffix.text_prefix hs
  obtain ⟨rest, hrest⟩ := hsuffix (behind.drop (behind.take k).length)
  refine ⟨rest, ?_⟩
  simp only [StdName.text, StdName.suffixText, List.append_assoc, hrest]
  rw [List.prefix_iff_eq_append.1 (List.take_prefix k behind)]

theorem StdName.sublist_link (table : LinkTable) (s : StdName) (url : String) :
    s.text.Sublist (s.link table url).toList := by
  unfold StdName.link
  split
  · have h := sublist_codeLink (String.ofList s.text)
      ((s.suffix.map (Suffix.url table url)).getD url)
    rwa [String.toList_ofList] at h
  · have hname := sublist_codeLink (String.ofList s.name) url
    rw [String.toList_ofList] at hname
    simp only [StdName.text, String.toList_append, List.append_assoc]
    refine hname.append (List.Sublist.trans ?_ (List.sublist_append_right ..))
    rw [String.toList_ofList]
    refine (List.Sublist.refl s.args).append (List.Sublist.trans ?_ (List.sublist_append_right ..))
    unfold StdName.suffixText
    cases s.suffix with
    | none => exact List.nil_sublist _
    | some suffix =>
      have h := sublist_codeLink (String.ofList suffix.text) (suffix.url table url)
      rwa [String.toList_ofList] at h

theorem Linker.sublist_linkPlain (l : Linker) (cs : List Char) : cs.Sublist (l.linkPlain cs) :=
  sublist_write_split (fun _ _ _ _ h => StdName.text_of_find h) l.sublist_linkIdl
    (fun a => a.1.sublist_link l.std a.2) none cs

/-! ## The whole linker -/

theorem text_of_findProtected {prev : Option Char} {cs a : List Char} {n : Nat}
    (h : findProtected prev cs = some (a, n)) : a = cs.take n := by
  obtain ⟨m, -, hm⟩ := Option.map_eq_some_iff.1 h
  cases hm
  rfl

/-- The linked text holds the characters of the text in their order. -/
theorem Linker.sublist_apply (l : Linker) (cs : List Char) : cs.Sublist (l.apply cs) :=
  sublist_write_split (fun _ _ _ _ h => text_of_findProtected h) l.sublist_linkPlain
    (fun a => List.Sublist.refl a) none cs

end DoxPages
