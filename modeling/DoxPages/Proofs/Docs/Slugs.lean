import DoxPages.Docs.Slug
import Mathlib.Data.List.Nodup
import Mathlib.Data.List.Perm.Subperm
import Std.Data.String.ToNat

/-!
# Slugs of one page

A slugger never gives out a slug twice: the number behind a taken slug is free,
because the slugs in use are too few to take every number tried. A slug holds
word characters and hyphens only.
-/

namespace DoxPages.Slugger

open Text

/-! ## Numbered slugs -/

theorem numberedSlug_inj {slug : String} {m n : Nat}
    (h : numberedSlug slug m = numberedSlug slug n) : m = n := by
  unfold numberedSlug at h
  rw [String.append_right_inj] at h
  exact Nat.repr_injective h

theorem numberedSlug_ne (slug : String) (n : Nat) : numberedSlug slug n ≠ slug := by
  intro h
  have hlen := congrArg String.length h
  simp only [numberedSlug, String.length_append] at hlen
  have hdash : "-".length = 1 := by decide
  omega

theorem freeNumber_cases (s : Slugger) (slug : String) (fuel n : Nat) :
    s.isTaken (numberedSlug slug (s.freeNumber slug fuel n)) = false ∨
      ∀ i < fuel, s.isTaken (numberedSlug slug (n + i)) = true := by
  induction fuel generalizing n with
  | zero => exact .inr fun i hi => absurd hi (Nat.not_lt_zero i)
  | succ fuel ih =>
    rw [freeNumber]
    split
    · rename_i htaken
      refine (ih (n + 1)).imp_right fun hall i hi => ?_
      cases i with
      | zero => exact htaken
      | succ i =>
        have hi' := hall i (by omega)
        rwa [Nat.add_right_comm] at hi'
    · rename_i hfree
      exact .inl (by simpa using hfree)

/-- A slug that is taken leaves too few others to take all numbers tried. -/
theorem isTaken_freeNumber {s : Slugger} {slug : String} (h : s.isTaken slug = true) (n : Nat) :
    s.isTaken (numberedSlug slug (s.freeNumber slug s.taken.length n)) = false := by
  refine (s.freeNumber_cases slug s.taken.length n).resolve_right fun hall => ?_
  let tried := (List.range s.taken.length).map fun i => numberedSlug slug (n + i)
  have hnodup : (slug :: tried).Nodup := by
    rw [List.nodup_cons]
    refine ⟨fun hmem => ?_, ?_⟩
    · obtain ⟨i, -, hi⟩ := List.mem_map.1 hmem
      exact numberedSlug_ne slug _ hi
    · refine List.Nodup.map_on (fun i _ j _ hij => ?_) List.nodup_range
      have := numberedSlug_inj hij
      omega
  have hsub : slug :: tried ⊆ s.taken.map Prod.fst := by
    intro x hx
    rcases List.mem_cons.1 hx with rfl | hx
    · exact Assoc.hasKey_iff.1 h
    · obtain ⟨i, hi, rfl⟩ := List.mem_map.1 hx
      exact Assoc.hasKey_iff.1 (hall i (List.mem_range.1 hi))
  have hlen := (hnodup.subperm hsub).length_le
  simp only [List.length_cons, List.length_map, List.length_range, tried] at hlen
  omega

/-! ## One slug after another -/

theorem isTaken_slug (s : Slugger) (heading : String) : s.isTaken (s.slug heading).1 = false := by
  unfold slug
  simp only
  split
  · rename_i hnone
    simp [isTaken, Assoc.hasKey, hnone]
  · rename_i last hsome
    have htaken : s.isTaken (headingSlug heading) = true := by
      simp [isTaken, Assoc.hasKey, hsome]
    exact isTaken_freeNumber htaken _

theorem isTaken_after_slug (s : Slugger) (heading x : String) :
    (s.slug heading).2.isTaken x = true ↔ x = (s.slug heading).1 ∨ s.isTaken x = true := by
  unfold slug
  simp only
  split
  · simp only [isTaken, Assoc.hasKey_iff, Assoc.mem_keys_put]
  · rename_i last hsome
    have hkey : headingSlug heading ∈ s.taken.map Prod.fst :=
      Assoc.exists_lookup_iff_keys.1 ⟨last, hsome⟩
    simp only [isTaken, Assoc.hasKey_iff, Assoc.mem_keys_put, Assoc.keys_put_of_mem hkey]

theorem slugs_cons (s : Slugger) (h : String) (hs : List String) :
    s.slugs (h :: hs) = (s.slug h).1 :: (s.slug h).2.slugs hs := rfl

theorem length_slugs (s : Slugger) (hs : List String) : (s.slugs hs).length = hs.length := by
  induction hs generalizing s with
  | nil => rfl
  | cons h hs ih => simp [slugs, ih]

/-- All slugs that one slugger gives out differ from each other and from earlier ones. -/
theorem slugs_fresh (s : Slugger) (hs : List String) :
    (s.slugs hs).Nodup ∧ ∀ x ∈ s.slugs hs, s.isTaken x = false := by
  induction hs generalizing s with
  | nil => exact ⟨List.nodup_nil, fun x hx => by cases hx⟩
  | cons h hs ih =>
    obtain ⟨hnodup, hfree⟩ := ih (s.slug h).2
    rw [slugs_cons]
    refine ⟨List.nodup_cons.2 ⟨fun hmem => ?_, hnodup⟩, fun x hx => ?_⟩
    · have := hfree _ hmem
      rw [(s.isTaken_after_slug h _).2 (.inl rfl)] at this
      cases this
    · rcases List.mem_cons.1 hx with rfl | hx
      · exact s.isTaken_slug h
      · rw [← Bool.not_eq_true]
        intro htaken
        have := hfree x hx
        rw [(s.isTaken_after_slug h x).2 (.inr htaken)] at this
        cases this

theorem nodup_slugs (s : Slugger) (hs : List String) : (s.slugs hs).Nodup :=
  (s.slugs_fresh hs).1

/-! ## Characters of slugs -/

def isSlugChar (c : Char) : Bool := isWord c || c == '-'

theorem isSlugChar_headingSlug (heading : String) :
    ∀ c ∈ (headingSlug heading).toList, isSlugChar c = true := by
  intro c hc
  rw [headingSlug, toList_onChars, replaceChar, List.mem_flatMap] at hc
  obtain ⟨d, hd, hc⟩ := hc
  have hd := (List.mem_filter.1 hd).2
  split at hc
  · rw [List.mem_singleton.1 hc]
    decide
  · rename_i hspace
    rw [List.mem_singleton.1 hc]
    simpa [isSlugChar, hspace] using hd

theorem isSlugChar_numberedSlug {slug : String} (h : ∀ c ∈ slug.toList, isSlugChar c = true)
    (n : Nat) : ∀ c ∈ (numberedSlug slug n).toList, isSlugChar c = true := by
  intro c hc
  simp only [numberedSlug, String.toList_append, List.mem_append] at hc
  rcases hc with (hc | hc) | hc
  · exact h c hc
  · obtain rfl : c = '-' := by simpa using hc
    decide
  · have hdigit : c.isDigit = true := by
      rw [Nat.toString_eq_ofList_toDigits, String.toList_ofList] at hc
      exact Nat.isDigit_of_mem_toDigits (by decide) (by decide) hc
    have halnum : c.isAlphanum = true := by simp [Char.isAlphanum, hdigit]
    simp [isSlugChar, isWord_of_isAlphanum halnum]

theorem isSlugChar_slugs (s : Slugger) (hs : List String) :
    ∀ x ∈ s.slugs hs, ∀ c ∈ x.toList, isSlugChar c = true := by
  induction hs generalizing s with
  | nil => intro x hx; cases hx
  | cons h hs ih =>
    intro x hx
    rw [slugs_cons] at hx
    rcases List.mem_cons.1 hx with rfl | hx
    · unfold slug
      simp only
      split
      · exact isSlugChar_headingSlug h
      · exact isSlugChar_numberedSlug (isSlugChar_headingSlug h) _
    · exact ih _ x hx

end DoxPages.Slugger
