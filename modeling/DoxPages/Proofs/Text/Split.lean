import DoxPages.Text.Basic
import Mathlib.Data.List.Induction

/-!
# Texts in pieces

A text that is split at a separator and its pieces: no piece holds the separator, and texts
that are joined by it are the pieces again.
-/

namespace DoxPages.Text

theorem splitChar_of_not_mem {sep : Char} {cs : List Char} (h : sep ∉ cs) :
    splitChar sep cs = [cs] := by
  induction cs with
  | nil => rfl
  | cons c cs ih =>
    rw [List.mem_cons, not_or] at h
    rw [splitChar, if_neg (Ne.symm h.1), ih h.2]

theorem splitChar_append (sep : Char) (cs : List Char) : ∃ pieces last, ∀ ds : List Char,
    sep ∉ ds → splitChar sep (cs ++ ds) = pieces ++ [last ++ ds] := by
  induction cs with
  | nil => exact ⟨[], [], fun ds h => splitChar_of_not_mem h⟩
  | cons c cs ih =>
    obtain ⟨pieces, last, ih⟩ := ih
    by_cases hc : c = sep
    · refine ⟨[] :: pieces, last, fun ds h => ?_⟩
      rw [List.cons_append, splitChar, if_pos hc, ih ds h, List.cons_append]
    · cases pieces with
      | nil =>
        refine ⟨[], c :: last, fun ds h => ?_⟩
        rw [List.cons_append, splitChar, if_neg hc, ih ds h]
        rfl
      | cons piece pieces =>
        refine ⟨(c :: piece) :: pieces, last, fun ds h => ?_⟩
        rw [List.cons_append, splitChar, if_neg hc, ih ds h]
        rfl

theorem not_mem_of_mem_splitChar {sep : Char} {cs piece : List Char}
    (h : piece ∈ splitChar sep cs) : sep ∉ piece := by
  induction cs generalizing piece with
  | nil =>
    obtain rfl := List.mem_singleton.1 h
    exact List.not_mem_nil
  | cons c cs ih =>
    rw [splitChar] at h
    by_cases hc : c = sep
    · rw [if_pos hc] at h
      rcases List.mem_cons.1 h with rfl | h
      · exact List.not_mem_nil
      · exact ih h
    · rw [if_neg hc] at h
      cases hrest : splitChar sep cs with
      | nil => exact absurd hrest (splitChar_ne_nil sep cs)
      | cons first rest =>
        rw [hrest] at h ih
        rcases List.mem_cons.1 h with rfl | h
        · rw [List.mem_cons, not_or]
          exact ⟨Ne.symm hc, ih List.mem_cons_self⟩
        · exact ih (List.mem_cons_of_mem _ h)

theorem splitChar_append_cons (sep : Char) (cs ds : List Char) :
    splitChar sep (cs ++ sep :: ds) = splitChar sep cs ++ splitChar sep ds := by
  induction cs with
  | nil =>
    show splitChar sep (sep :: ds) = [] :: splitChar sep ds
    rw [splitChar, if_pos rfl]
  | cons c cs ih =>
    by_cases hc : c = sep
    · rw [List.cons_append, splitChar, if_pos hc, ih, splitChar, if_pos hc, List.cons_append]
    · rw [List.cons_append, splitChar, if_neg hc, ih, splitChar, if_neg hc]
      cases hpieces : splitChar sep cs with
      | nil => exact absurd hpieces (splitChar_ne_nil sep cs)
      | cons piece pieces => rfl

theorem flatMap_splitChar (sep : Char) (cs : List Char) :
    (splitChar sep cs).flatMap (sep :: ·) = sep :: cs := by
  induction cs with
  | nil => rfl
  | cons c cs ih =>
    rw [splitChar]
    split
    · rename_i hc
      rw [List.flatMap_cons, ih, hc]
      rfl
    · cases hpieces : splitChar sep cs with
      | nil => exact absurd hpieces (splitChar_ne_nil sep cs)
      | cons piece pieces =>
        rw [hpieces, List.flatMap_cons, List.cons_append, List.cons.injEq] at ih
        rw [List.flatMap_cons, List.cons_append, List.cons_append, ih.2]

theorem splitChar_append_ne {sep : Char} {cs : List Char} (h : cs ≠ []) (ds : List Char) :
    splitChar sep (cs ++ ds) ≠ splitChar sep ds := by
  intro heq
  have hwhole := flatMap_splitChar sep (cs ++ ds)
  rw [heq, flatMap_splitChar] at hwhole
  exact h (List.self_eq_append_left.1 (List.cons.inj hwhole).2)

/-- A text begins a piece of a longer one exactly behind a separator, or at the start. -/
theorem exists_splitChar_append_iff (sep : Char) (cs ds : List Char) :
    (∃ front, splitChar sep (cs ++ ds) = front ++ splitChar sep ds) ↔
      cs = [] ∨ cs.getLast? = some sep := by
  constructor
  · rintro ⟨front, hfront⟩
    induction cs generalizing front with
    | nil => exact .inl rfl
    | cons c cs ih =>
      right
      cases front with
      | nil => exact absurd hfront (splitChar_append_ne (List.cons_ne_nil c cs) ds)
      | cons piece front =>
        rw [List.cons_append, splitChar] at hfront
        split at hfront
        · rename_i hc
          rcases ih front (List.cons.inj hfront).2 with rfl | hlast
          · rw [hc, List.getLast?_singleton]
          · rw [List.getLast?_cons, hlast, Option.getD_some]
        · cases hpieces : splitChar sep (cs ++ ds) with
          | nil => exact absurd hpieces (splitChar_ne_nil sep _)
          | cons first rest =>
            rw [hpieces, List.cons_append, List.cons.injEq] at hfront
            have hrest : splitChar sep (cs ++ ds) = (first :: front) ++ splitChar sep ds := by
              rw [hpieces, hfront.2, List.cons_append]
            rcases ih (first :: front) hrest with rfl | hlast
            · have hlength := congrArg List.length hrest
              rw [List.nil_append, List.length_append, List.length_cons] at hlength
              omega
            · rw [List.getLast?_cons, hlast, Option.getD_some]
  · rintro (rfl | hlast)
    · exact ⟨[], rfl⟩
    · obtain ⟨front, rfl⟩ := List.getLast?_eq_some_iff.1 hlast
      exact ⟨_, by rw [List.append_assoc, List.singleton_append, splitChar_append_cons]⟩

theorem tail_splitChar_append {sep : Char} {cs : List Char} (h : sep ∉ cs) (ds : List Char) :
    (splitChar sep (cs ++ ds)).tail = (splitChar sep ds).tail := by
  induction cs with
  | nil => rfl
  | cons c cs ih =>
    rw [List.mem_cons, not_or] at h
    rw [← ih h.2, List.cons_append, splitChar, if_neg (Ne.symm h.1)]
    split
    · rename_i hpieces
      exact absurd hpieces (splitChar_ne_nil sep _)
    · rename_i hpieces
      rw [hpieces]
      rfl

theorem infix_of_mem_splitChar {sep : Char} {cs piece : List Char}
    (h : piece ∈ splitChar sep cs) : piece <:+: cs := by
  have hinfix : (sep :: piece) <:+: sep :: cs := by
    have hwhole := flatMap_splitChar sep cs
    rw [List.flatMap_def] at hwhole
    rw [← hwhole]
    exact List.infix_of_mem_flatten (List.mem_map_of_mem h)
  rcases List.infix_cons_iff.1 hinfix with hprefix | hinfix
  · exact (List.cons_prefix_cons.1 hprefix).2.isInfix
  · exact (List.infix_cons (List.infix_refl piece)).trans hinfix

/-- Trimming away separators only drops empty pieces. -/
theorem mem_splitChar_trim_iff {sep : Char} {cs piece : List Char} (h : piece ≠ []) :
    piece ∈ splitChar sep (trim (· == sep) cs) ↔ piece ∈ splitChar sep cs := by
  have hleft (ds : List Char) :
      piece ∈ splitChar sep (ds.dropWhile (· == sep)) ↔ piece ∈ splitChar sep ds := by
    induction ds with
    | nil => rfl
    | cons d ds ih =>
      by_cases hd : d = sep
      · rw [List.dropWhile_cons_of_pos (by simpa using hd), ih, splitChar, if_pos hd,
          List.mem_cons, or_iff_right h]
      · rw [List.dropWhile_cons_of_neg (by simpa using hd)]
  have hright (ds : List Char) :
      piece ∈ splitChar sep (trimRight (· == sep) ds) ↔ piece ∈ splitChar sep ds := by
    induction ds using List.reverseRecOn with
    | nil => rfl
    | append_singleton ds d ih =>
      rw [trimRight, List.reverse_append, List.reverse_singleton, List.singleton_append]
      by_cases hd : d = sep
      · rw [List.dropWhile_cons_of_pos (by simpa using hd), ← trimRight, ih, hd,
          splitChar_append_cons, List.mem_append]
        exact (or_iff_left fun hempty => h (List.mem_singleton.1 hempty)).symm
      · rw [List.dropWhile_cons_of_neg (by simpa using hd), List.reverse_cons,
          List.reverse_reverse]
  exact (hright (cs.dropWhile (· == sep))).trans (hleft cs)

/-! ## Joined texts -/

theorem joinWith_singleton (sep p : String) : (joinWith sep [p]).toList = p.toList := by
  simp [joinWith]

theorem joinWith_cons_cons (sep p q : String) (ps : List String) :
    (joinWith sep (p :: q :: ps)).toList =
      p.toList ++ (sep.toList ++ (joinWith sep (q :: ps)).toList) := by
  simp [joinWith]

theorem mem_joinWith {sep : String} {ps : List String} {c : Char}
    (h : c ∈ (joinWith sep ps).toList) : c ∈ sep.toList ∨ ∃ p ∈ ps, c ∈ p.toList := by
  induction ps with
  | nil => simp [joinWith] at h
  | cons p ps ih =>
    cases ps with
    | nil => exact .inr ⟨p, List.mem_cons_self, joinWith_singleton sep p ▸ h⟩
    | cons q ps =>
      rw [joinWith_cons_cons, List.mem_append, List.mem_append] at h
      rcases h with h | h | h
      · exact .inr ⟨p, List.mem_cons_self, h⟩
      · exact .inl h
      · exact (ih h).imp_right fun ⟨r, hr, hc⟩ => ⟨r, List.mem_cons_of_mem _ hr, hc⟩

theorem joinWith_concat {sep : String} {ps : List String} (h : ps ≠ []) (p : String) :
    (joinWith sep (ps ++ [p])).toList = (joinWith sep ps).toList ++ (sep.toList ++ p.toList) := by
  induction ps with
  | nil => exact absurd rfl h
  | cons q ps ih =>
    cases ps with
    | nil =>
      rw [List.singleton_append, joinWith_cons_cons, joinWith_singleton, joinWith_singleton]
    | cons r ps =>
      have hrest : (joinWith sep (r :: (ps ++ [p]))).toList =
          (joinWith sep (r :: ps)).toList ++ (sep.toList ++ p.toList) := ih nofun
      rw [List.cons_append, List.cons_append, joinWith_cons_cons, joinWith_cons_cons, hrest,
        List.append_assoc, List.append_assoc]

theorem splitChar_joinWith {sep : String} {c : Char} (hsep : sep.toList = [c]) {ps : List String}
    (hne : ps ≠ []) :
    splitChar c (joinWith sep ps).toList = ps.flatMap fun p => splitChar c p.toList := by
  induction ps with
  | nil => exact absurd rfl hne
  | cons p ps ih =>
    cases ps with
    | nil => rw [joinWith_singleton, List.flatMap_singleton]
    | cons q ps =>
      rw [joinWith_cons_cons, hsep, List.singleton_append, splitChar_append_cons, ih nofun,
        List.flatMap_cons (x := p)]

theorem splitChar_joinWith_of_not_mem {sep : String} {c : Char} (hsep : sep.toList = [c])
    {ps : List String} (hne : ps ≠ []) (h : ∀ p ∈ ps, c ∉ p.toList) :
    splitChar c (joinWith sep ps).toList = ps.map String.toList := by
  rw [splitChar_joinWith hsep hne, List.map_eq_flatMap, List.flatMap_def, List.flatMap_def]
  exact congrArg List.flatten (List.map_congr_left fun p hp => splitChar_of_not_mem (h p hp))

end DoxPages.Text
