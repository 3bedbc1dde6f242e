import DoxPages.Proofs.Docs.Slugs
import Mathlib.Data.List.Induction

/-!
# The least free slug

A slugger looks for a free slug behind the last number it tried. Numbers that were tried stay
taken, so nothing free lies below them (`Tracks.counted`), and what the slugger finds is what a
search through all numbers would find: `slugs_leastFree`. `Search` is the search slug by slug,
with the table it leaves.
-/

namespace DoxPages.Slugger

/-- The slug for `h` where `issued` were given out: itself, or with the least free number. -/
inductive LeastFree (issued : List String) (h : String) : String → Prop
  | own (hfree : h ∉ issued) : LeastFree issued h h
  | numbered {n : Nat} (htaken : h ∈ issued) (hpos : 0 < n) (hfree : numberedSlug h n ∉ issued)
      (hleast : ∀ m, 0 < m → m < n → numberedSlug h m ∈ issued) :
      LeastFree issued h (numberedSlug h n)

theorem LeastFree.unique {issued : List String} {h x y : String} (hx : LeastFree issued h x)
    (hy : LeastFree issued h y) : x = y := by
  cases hx with
  | own hfree =>
    cases hy with
    | own => rfl
    | numbered htaken => exact absurd htaken hfree
  | @numbered m htaken hm hfreem hleastm =>
    cases hy with
    | own hfree => exact absurd htaken hfree
    | @numbered n _ hn hfreen hleastn =>
      rcases Nat.lt_trichotomy m n with h | rfl | h
      · exact absurd (hleastn m hm h) hfreem
      · rfl
      · exact absurd (hleastm n hn h) hfreen

/-- From a slug that is tried to the one that is found: as long as the slug is taken, the number
kept for `h` is counted up, and `h` with that number is tried next. -/
inductive Search (h : String) : Slugger → String → Slugger → String → Prop
  | found {s : Slugger} {slug : String} (hfree : s.isTaken slug = false) : Search h s slug s slug
  | next {s t : Slugger} {slug free : String} {last : Nat} (htaken : s.isTaken slug = true)
      (hlast : s.taken.lookup h = some last)
      (hrest : Search h ⟨Assoc.put h (last + 1) s.taken⟩ (numberedSlug h (last + 1)) t free) :
      Search h s slug t free

/-! ## One slug -/

section
variable {s : Slugger} {h heading : String} {last : Nat}

theorem slug_of_free (hfree : s.taken.lookup (headingSlug heading) = none) :
    s.slug heading = (headingSlug heading, ⟨Assoc.put (headingSlug heading) 0 s.taken⟩) := by
  unfold slug
  simp only [hfree]

theorem slug_of_taken (htaken : s.taken.lookup (headingSlug heading) = some last) :
    let n := s.freeNumber (headingSlug heading) s.taken.length (last + 1)
    let fresh := numberedSlug (headingSlug heading) n
    s.slug heading = (fresh, ⟨Assoc.put fresh 0 (Assoc.put (headingSlug heading) n s.taken)⟩) := by
  unfold slug
  simp only [htaken]

theorem isTaken_of_lookup (hlast : s.taken.lookup h = some last) : s.isTaken h = true := by
  rw [isTaken, Assoc.hasKey, hlast]
  rfl

/-- Counting on for a slug that is taken takes no other. -/
theorem isTaken_put (htaken : s.isTaken h = true) (n : Nat) (x : String) :
    isTaken ⟨Assoc.put h n s.taken⟩ x = s.isTaken x := by
  rw [Bool.eq_iff_iff, isTaken, isTaken, Assoc.hasKey_iff, Assoc.hasKey_iff,
    Assoc.keys_put_of_mem (Assoc.hasKey_iff.1 htaken)]

theorem isTaken_below_freeNumber (s : Slugger) (h : String) {fuel n m : Nat} (hn : n ≤ m)
    (hm : m < s.freeNumber h fuel n) : s.isTaken (numberedSlug h m) = true := by
  induction fuel generalizing n with
  | zero =>
    rw [freeNumber] at hm
    omega
  | succ fuel ih =>
    rw [freeNumber] at hm
    split at hm
    · rename_i htaken
      rcases Nat.eq_or_lt_of_le hn with rfl | hn
      · exact htaken
      · exact ih hn hm
    · omega

theorem le_freeNumber (s : Slugger) (h : String) (fuel n : Nat) : n ≤ s.freeNumber h fuel n := by
  induction fuel generalizing n with
  | zero => exact Nat.le_refl n
  | succ fuel ih =>
    rw [freeNumber]
    split
    · exact Nat.le_of_succ_le (ih (n + 1))
    · exact Nat.le_refl n

/-! ## The search -/

theorem search_freeNumber (htaken : s.isTaken h = true) {fuel n : Nat}
    (hfree : s.isTaken (numberedSlug h (s.freeNumber h fuel n)) = false) :
    Search h ⟨Assoc.put h n s.taken⟩ (numberedSlug h n)
      ⟨Assoc.put h (s.freeNumber h fuel n) s.taken⟩
      (numberedSlug h (s.freeNumber h fuel n)) := by
  induction fuel generalizing n with
  | zero =>
    rw [freeNumber] at hfree ⊢
    exact .found (by rwa [isTaken_put htaken])
  | succ fuel ih =>
    rw [freeNumber] at hfree ⊢
    split
    · rename_i hn
      rw [if_pos hn] at hfree
      refine .next (by rwa [isTaken_put htaken]) (Assoc.lookup_put_self ..) ?_
      rw [Assoc.put_put]
      exact ih hfree
    · rename_i hn
      exact .found (by rw [isTaken_put htaken]; simpa using hn)

/-- The search for the slug of a heading ends, and the slug it finds is the slugger's. -/
theorem exists_search (s : Slugger) (heading : String) :
    ∃ t, Search (headingSlug heading) s (headingSlug heading) t (s.slug heading).1 ∧
      (s.slug heading).2 = ⟨Assoc.put (s.slug heading).1 0 t.taken⟩ := by
  cases hlookup : s.taken.lookup (headingSlug heading) with
  | none =>
    rw [slug_of_free hlookup]
    refine ⟨s, .found ?_, rfl⟩
    rw [isTaken, Assoc.hasKey, hlookup]
    rfl
  | some last =>
    have htaken := isTaken_of_lookup hlookup
    rw [slug_of_taken hlookup]
    exact ⟨_, .next htaken hlookup (search_freeNumber htaken (isTaken_freeNumber htaken _)), rfl⟩

end

/-! ## The numbers kept -/

/-- The slugger has given out `issued`, and no number up to one it keeps is free. -/
structure Tracks (s : Slugger) (issued : List String) : Prop where
  isTaken_iff : ∀ x, s.isTaken x = true ↔ x ∈ issued
  counted : ∀ {h last}, s.taken.lookup h = some last →
    ∀ n, 0 < n → n ≤ last → numberedSlug h n ∈ issued

theorem tracks_nil : Tracks {} [] where
  isTaken_iff _ := by simp [isTaken, Assoc.hasKey]
  counted hlast := by cases hlast

namespace Tracks

variable {s : Slugger} {issued : List String} (hs : Tracks s issued)
include hs

theorem not_mem_of_lookup {h : String} (hnone : s.taken.lookup h = none) : h ∉ issued := by
  rw [← hs.isTaken_iff, isTaken, Assoc.hasKey, hnone]
  exact Bool.false_ne_true

/-- Below the number that is found all are taken: those up to the last one, and those tried. -/
theorem mem_of_lt_freeNumber {h : String} {last fuel n : Nat} (hlast : s.taken.lookup h = some last)
    (hpos : 0 < n) (hn : n < s.freeNumber h fuel (last + 1)) : numberedSlug h n ∈ issued := by
  by_cases hle : n ≤ last
  · exact hs.counted hlast n hpos hle
  · exact (hs.isTaken_iff _).1 (isTaken_below_freeNumber s h (by omega) hn)

theorem leastFree_slug (heading : String) :
    LeastFree issued (headingSlug heading) (s.slug heading).1 := by
  cases hlookup : s.taken.lookup (headingSlug heading) with
  | none =>
    rw [slug_of_free hlookup]
    exact .own (hs.not_mem_of_lookup hlookup)
  | some last =>
    have htaken := isTaken_of_lookup hlookup
    rw [slug_of_taken hlookup]
    refine .numbered ((hs.isTaken_iff _).1 htaken) ?_ ?_
      fun m hpos hm => hs.mem_of_lt_freeNumber hlookup hpos hm
    · exact Nat.lt_of_lt_of_le (Nat.succ_pos last) (le_freeNumber ..)
    · rw [← hs.isTaken_iff, isTaken_freeNumber htaken]
      exact Bool.false_ne_true

theorem slug (heading : String) : Tracks (s.slug heading).2 (issued ++ [(s.slug heading).1]) where
  isTaken_iff x := by
    rw [isTaken_after_slug, hs.isTaken_iff, List.mem_append, List.mem_singleton, or_comm]
  counted {h last} hlast n hpos hn := by
    rw [List.mem_append, List.mem_singleton]
    cases hlookup : s.taken.lookup (headingSlug heading) with
    | none =>
      rw [slug_of_free hlookup] at hlast ⊢
      by_cases hh : h = headingSlug heading
      · rw [hh, Assoc.lookup_put_self, Option.some.injEq] at hlast
        omega
      · rw [Assoc.lookup_put_of_ne hh] at hlast
        exact .inl (hs.counted hlast n hpos hn)
    | some old =>
      rw [slug_of_taken hlookup] at hlast ⊢
      simp only at hlast ⊢
      by_cases hfresh : h = numberedSlug (headingSlug heading)
          (s.freeNumber (headingSlug heading) s.taken.length (old + 1))
      · rw [hfresh, Assoc.lookup_put_self, Option.some.injEq] at hlast
        omega
      · rw [Assoc.lookup_put_of_ne hfresh] at hlast
        by_cases hh : h = headingSlug heading
        · rw [hh, Assoc.lookup_put_self, Option.some.injEq] at hlast
          subst hlast
          rw [hh]
          rcases Nat.eq_or_lt_of_le hn with rfl | hn
          · exact .inr rfl
          · exact .inl (hs.mem_of_lt_freeNumber hlookup hpos hn)
        · rw [Assoc.lookup_put_of_ne hh] at hlast
          exact .inl (hs.counted hlast n hpos hn)

end Tracks

/-! ## Slugs in order -/

def after (s : Slugger) (headings : List String) : Slugger :=
  headings.foldl (fun s heading => (s.slug heading).2) s

theorem after_concat (s : Slugger) (headings : List String) (heading : String) :
    s.after (headings ++ [heading]) = ((s.after headings).slug heading).2 :=
  List.foldl_concat ..

theorem slugs_append (s : Slugger) (before behind : List String) :
    s.slugs (before ++ behind) = s.slugs before ++ (s.after before).slugs behind := by
  induction before generalizing s with
  | nil => rfl
  | cons heading before ih => rw [List.cons_append, slugs_cons, slugs_cons, ih]; rfl

theorem tracks_after (headings : List String) :
    Tracks (after {} headings) (slugs {} headings) := by
  induction headings using List.reverseRecOn with
  | nil => exact tracks_nil
  | append_singleton headings heading ih =>
    rw [after_concat, slugs_append]
    exact ih.slug heading

/-- Every slug given out is the one with the least free number, the search for it ends there,
and no slug is given out twice. -/
theorem slugs_leastFree (before : List String) (heading : String) (behind : List String) :
    ∃ slug later,
      slugs {} (before ++ heading :: behind) = slugs {} before ++ slug :: later ∧
      (∀ x, LeastFree (slugs {} before) (headingSlug heading) x ↔ x = slug) ∧
      (∃ t, Search (headingSlug heading) (after {} before) (headingSlug heading) t slug ∧
        after {} (before ++ [heading]) = ⟨Assoc.put slug 0 t.taken⟩) ∧
      (slugs {} (before ++ heading :: behind)).Nodup := by
  have hleast := (tracks_after before).leastFree_slug heading
  refine ⟨((after {} before).slug heading).1, _, slugs_append {} before (heading :: behind),
    fun x => ⟨fun hx => hx.unique hleast, fun hx => hx ▸ hleast⟩, ?_, nodup_slugs ..⟩
  rw [after_concat]
  exact exists_search ..

example : slugs {} ["foo", "Foo!", "foo-1", "foo", "foo 1"] =
    ["foo", "foo-1", "foo-1-1", "foo-2", "foo-1-2"] := by decide

end DoxPages.Slugger
