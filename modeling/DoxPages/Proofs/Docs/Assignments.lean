import DoxPages.Docs.Prototype
import DoxPages.Proofs.Text.Ink
import DoxPages.Proofs.Text.Strip
import Mathlib.Data.List.Basic

/-!
# Assignments in argument lists

An equals sign is an assignment if its neighbours make no longer operator of it. `Spacing` says
what becomes of a text, find by find: an assignment takes the blanks on both sides of it and gets
single spaces instead, and every other character stays. The signs that are no assignments keep
the neighbours that make them so, and what comes out is evenly spaced: it comes out again.
-/

namespace DoxPages

open Text

/-! ## Where an assignment stands -/

/-- Whether a character makes one operator with an equals sign behind it. -/
def joinsEquals (c : Char) : Bool := ['=', '!', '<', '>'].contains c

/-- An equals sign with these neighbours, if it has any, belongs to no longer operator. -/
structure Lone (left right : Option Char) : Prop where
  left_free : left.any joinsEquals = false
  right_free : right ≠ some '='

instance (left right : Option Char) : Decidable (Lone left right) :=
  decidable_of_iff (left.any joinsEquals = false ∧ right ≠ some '=')
    ⟨fun h => ⟨h.1, h.2⟩, fun h => ⟨h.left_free, h.right_free⟩⟩

/-- A text behind a character starts with an assignment, or with blanks in front of one. -/
def StartsAssignment (prev : Option Char) (cs : List Char) : Prop :=
  ∃ lead rest, cs = lead ++ '=' :: rest ∧ allBlank lead = true ∧
    Lone (lead.getLast?.or prev) rest.head?

theorem not_joinsEquals_of_isBlank {c : Char} (h : isBlank c = true) : joinsEquals c = false := by
  rw [joinsEquals, ← Bool.not_eq_true, List.contains_iff_mem]
  intro hmem
  simp only [List.mem_cons, List.not_mem_nil, or_false] at hmem
  rcases hmem with rfl | rfl | rfl | rfl <;> exact absurd h (by decide)

theorem isBlank_of_allBlank_concat {front : List Char} {b : Char}
    (h : allBlank (front ++ [b]) = true) : isBlank b = true :=
  List.all_eq_true.1 h b (List.mem_append_right front List.mem_cons_self)

/-- Blanks in front of an equals sign leave it free on its left. -/
theorem any_joinsEquals_lead {lead : List Char} (h : allBlank lead = true) (prev : Option Char) :
    (lead.getLast?.or prev).any joinsEquals =
      (if lead = [] then prev else some ' ').any joinsEquals := by
  rcases List.eq_nil_or_concat lead with rfl | ⟨front, c, rfl⟩
  · rfl
  · rw [List.concat_eq_append] at h ⊢
    rw [List.getLast?_concat, if_neg (by simp), Option.some_or, Option.any_some,
      not_joinsEquals_of_isBlank (isBlank_of_allBlank_concat h)]
    rfl

theorem takeWhile_lead {lead : List Char} (h : allBlank lead = true) (rest : List Char) :
    (lead ++ '=' :: rest).takeWhile isBlank = lead :=
  (takeWhile_append_of_stopsAt (List.all_eq_true.1 h) (stopsAt_cons (by decide) rest)).1

theorem findAssignment_lead {lead : List Char} (h : allBlank lead = true) (prev : Option Char)
    (rest : List Char) : findAssignment prev (lead ++ '=' :: rest) =
      if Lone (lead.getLast?.or prev) rest.head? then
        some ((), lead.length + 1 + (rest.takeWhile isBlank).length)
      else none := by
  have hlone : Lone (lead.getLast?.or prev) rest.head? ↔
      ((if lead = [] then prev else some ' ').any joinsEquals ||
        rest.head? == some '=') = false := by
    rw [← any_joinsEquals_lead h, Bool.or_eq_false_iff, beq_eq_false_iff_ne]
    exact ⟨fun h => ⟨h.left_free, h.right_free⟩, fun h => ⟨h.1, h.2⟩⟩
  have hfind : findAssignment prev (lead ++ '=' :: rest) =
      if ((if lead = [] then prev else some ' ').any joinsEquals ||
          rest.head? == some '=') = true then none
      else some ((), lead.length + 1 + (rest.takeWhile isBlank).length) := by
    rw [findAssignment, takeWhile_lead h, List.drop_left]
    rfl
  rw [hfind]
  by_cases hl : Lone (lead.getLast?.or prev) rest.head?
  · rw [hlone.1 hl, if_neg Bool.false_ne_true, if_pos hl]
  · rw [if_pos (Bool.of_not_eq_false (mt hlone.2 hl)), if_neg hl]

/-- The finder finds an assignment where one starts, with all blanks beside it. -/
theorem findAssignment_cases (prev : Option Char) (cs : List Char) :
    (findAssignment prev cs = none ∧ ¬ StartsAssignment prev cs) ∨
    ∃ lead trail rest, cs = lead ++ '=' :: (trail ++ rest) ∧ allBlank lead = true ∧
      allBlank trail = true ∧ StopsAt isBlank rest ∧
      Lone (lead.getLast?.or prev) (trail ++ rest).head? ∧
      findAssignment prev cs = some ((), lead.length + 1 + trail.length) := by
  obtain ⟨lead, behind, rfl, htake, -, hblank, hstop⟩ := exists_run isBlank cs
  have hlead : allBlank lead = true := List.all_eq_true.2 hblank
  have hnone (hsign : behind.head? ≠ some '=') : findAssignment prev (lead ++ behind) = none ∧
      ¬ StartsAssignment prev (lead ++ behind) := by
    constructor
    · rw [findAssignment, htake, List.drop_left]
      cases behind with
      | nil => rfl
      | cons c rest =>
        simp only
        split
        · rename_i heq
          exact absurd (congrArg List.head? heq) hsign
        · rfl
    · rintro ⟨lead', rest, heq, hlead', -⟩
      have hsame := takeWhile_lead hlead' rest
      rw [← heq, htake] at hsame
      rw [hsame, List.append_cancel_left_eq] at heq
      exact hsign (congrArg List.head? heq)
  cases behind with
  | nil => exact .inl (hnone nofun)
  | cons c rest =>
    by_cases hc : c = '='
    · subst hc
      rw [findAssignment_lead hlead]
      by_cases hlone : Lone (lead.getLast?.or prev) rest.head?
      · right
        obtain ⟨trail, rest, rfl, htrail, -, hblank', hstop'⟩ := exists_run isBlank rest
        rw [if_pos hlone, htrail]
        exact ⟨lead, trail, rest, rfl, hlead, List.all_eq_true.2 hblank', hstop', hlone, rfl⟩
      · left
        rw [if_neg hlone]
        refine ⟨rfl, ?_⟩
        rintro ⟨lead', rest', heq, hlead', hlone'⟩
        have hsame := takeWhile_lead hlead' rest'
        rw [← heq, takeWhile_lead hlead] at hsame
        subst hsame
        rw [List.append_cancel_left_eq, List.cons.injEq] at heq
        exact hlone (heq.2 ▸ hlone')
    · exact .inl (hnone fun h => hc (Option.some.inj h))

/-! ## What becomes of a text -/

/-- A text behind a character with every assignment between single spaces. -/
def respaced (prev : Option Char) (cs : List Char) : List Char :=
  (split findAssignment prev cs).write id fun _ => [' ', '=', ' ']

@[simp] theorem respaced_nil (prev : Option Char) : respaced prev [] = [] := by
  rw [respaced, split]
  rfl

theorem respaced_keep {prev : Option Char} {c : Char} {cs : List Char}
    (h : ¬ StartsAssignment prev (c :: cs)) :
    respaced prev (c :: cs) = c :: respaced (some c) cs := by
  obtain ⟨hnone, -⟩ | ⟨lead, trail, rest, heq, hlead, -, -, hlone, -⟩ :=
    findAssignment_cases prev (c :: cs)
  · rw [respaced, split, hnone]
    exact Split.write_cons_id ..
  · exact absurd ⟨lead, trail ++ rest, heq, hlead, hlone⟩ h

theorem respaced_assign {prev : Option Char} {lead trail rest : List Char}
    (hlead : allBlank lead = true) (htrail : allBlank trail = true) (hstop : StopsAt isBlank rest)
    (hlone : Lone (lead.getLast?.or prev) (trail ++ rest).head?) :
    respaced prev (lead ++ '=' :: (trail ++ rest)) =
      ' ' :: '=' :: ' ' :: respaced ('=' :: trail).getLast? rest := by
  have hfind := findAssignment_lead hlead prev (trail ++ rest)
  rw [if_pos hlone, (takeWhile_append_of_stopsAt (List.all_eq_true.1 htrail) hstop).1] at hfind
  have hprev : (lead ++ '=' :: (trail ++ rest))[lead.length + trail.length]? =
      ('=' :: trail).getLast? := by
    rw [List.getElem?_append_right (by omega), Nat.add_sub_cancel_left, ← List.cons_append,
      List.getElem?_append_left (by simp), List.getLast?_eq_getElem?]
    rfl
  have hdrop : (lead ++ '=' :: (trail ++ rest)).drop (lead.length + trail.length + 1) = rest := by
    rw [show lead.length + trail.length + 1 = lead.length + (trail.length + 1) by omega,
      ← List.drop_drop, List.drop_left, List.drop_succ_cons, List.drop_left]
  generalize hcs : lead ++ '=' :: (trail ++ rest) = cs at *
  cases cs with
  | nil => cases lead <;> cases hcs
  | cons c cs =>
    rw [Nat.add_right_comm] at hfind
    rw [List.drop_succ_cons] at hdrop
    rw [respaced, split, hfind]
    simp only [hprev, hdrop]
    rfl

/-- A text behind a character, and what it is written as: every assignment takes the blanks on
both sides of it and is written between single spaces. -/
inductive Spacing : Option Char → List Char → List Char → Prop
  | nil {prev : Option Char} : Spacing prev [] []
  | assign {prev : Option Char} {lead trail rest out : List Char}
      (lead_blank : allBlank lead = true) (trail_blank : allBlank trail = true)
      (stops : StopsAt isBlank rest) (lone : Lone (lead.getLast?.or prev) (trail ++ rest).head?)
      (tail : Spacing ('=' :: trail).getLast? rest out) :
      Spacing prev (lead ++ '=' :: (trail ++ rest)) (' ' :: '=' :: ' ' :: out)
  | keep {prev : Option Char} {c : Char} {cs out : List Char}
      (kept : ¬ StartsAssignment prev (c :: cs)) (tail : Spacing (some c) cs out) :
      Spacing prev (c :: cs) (c :: out)

theorem spacing_respaced (prev : Option Char) (cs : List Char) :
    Spacing prev cs (respaced prev cs) := by
  obtain ⟨-, hnone⟩ | ⟨lead, trail, rest, rfl, hlead, htrail, hstop, hlone, -⟩ :=
    findAssignment_cases prev cs
  · cases cs with
    | nil =>
      rw [respaced_nil]
      exact .nil
    | cons c cs =>
      rw [respaced_keep hnone]
      exact .keep hnone (spacing_respaced (some c) cs)
  · rw [respaced_assign hlead htrail hstop hlone]
    exact .assign hlead htrail hstop hlone (spacing_respaced _ rest)
termination_by cs.length
decreasing_by
  · simp
  · subst_vars
    simp
    omega

namespace Spacing

variable {prev : Option Char} {cs out : List Char}

theorem ink_assign {lead trail : List Char} (hlead : allBlank lead = true)
    (htrail : allBlank trail = true) (rest : List Char) :
    ink (lead ++ '=' :: (trail ++ rest)) = '=' :: ink rest := by
  have hsign (ds : List Char) : ink ('=' :: ds) = '=' :: ink ds := rfl
  rw [ink_append, hsign, ink_append, ink_eq_nil_iff.2 hlead, ink_eq_nil_iff.2 htrail,
    List.nil_append, List.nil_append]

theorem ink_eq (h : Spacing prev cs out) : ink out = ink cs := by
  induction h with
  | nil => rfl
  | assign hlead htrail _ _ _ ih =>
    rw [ink_assign hlead htrail, ← ih]
    rfl
  | @keep _ c cs out _ _ ih => rw [ink_cons, ih, ← ink_cons]

theorem head?_of_ink {c : Char} (h : Spacing (some '=') (c :: cs) out)
    (hc : isBlank c = false) : out.head? = some c := by
  generalize htext : c :: cs = text at h
  cases h with
  | nil => cases htext
  | @assign _ lead trail rest _ hlead _ _ hlone _ =>
    cases lead with
    | nil => exact absurd hlone.left_free (by decide)
    | cons b lead =>
      obtain rfl := (List.cons.inj htext).1
      have hb : isBlank c = true := List.all_eq_true.1 hlead c List.mem_cons_self
      rw [hc] at hb
      cases hb
  | keep _ _ =>
    rw [List.head?_cons, (List.cons.inj htext).1]

end Spacing

/-! ## What becomes of an equals sign -/

/-- An equals sign between two texts and what stands beside it in the end: an assignment is
between spaces, and every other sign still touches the ink it touched. -/
structure SignKept (prev : Option Char) (left right left' right' : List Char) : Prop where
  ink_left : ink left' = ink left
  ink_right : ink right' = ink right
  left_nil : ¬ Lone (left.getLast?.or prev) right.head? → left = [] → left' = []
  spaced : Lone (left.getLast?.or prev) right.head? →
    left'.getLast? = some ' ' ∧ right'.head? = some ' '
  left_touches : ¬ Lone (left.getLast?.or prev) right.head? →
    ∀ c, left.getLast? = some c → isBlank c = false → left'.getLast? = some c
  right_touches : ¬ Lone (left.getLast?.or prev) right.head? →
    ∀ c, right.head? = some c → isBlank c = false → right'.head? = some c

theorem getLast?_cons_or (c : Char) (cs : List Char) :
    (c :: cs).getLast? = cs.getLast?.or (some c) := by
  rw [List.getLast?_cons]
  cases cs.getLast? <;> rfl

theorem getLast?_cons_or_prev (prev : Option Char) (c : Char) (cs : List Char) :
    (c :: cs).getLast?.or prev = cs.getLast?.or (some c) := by
  rw [getLast?_cons_or, Option.or_assoc, Option.some_or]

namespace SignKept

variable {prev : Option Char} {left right left' right' : List Char}

theorem keep {c : Char} (kept : SignKept (some c) left right left' right') :
    SignKept prev (c :: left) right (c :: left') right' := by
  have hend {d : Char} (h : left'.getLast? = some d) : (c :: left').getLast? = some d := by
    rw [getLast?_cons_or, h, Option.some_or]
  constructor
  · rw [ink_cons, kept.ink_left, ← ink_cons]
  · exact kept.ink_right
  · exact fun _ => nofun
  · rw [getLast?_cons_or_prev]
    exact fun hsign => ⟨hend (kept.spaced hsign).1, (kept.spaced hsign).2⟩
  · rw [getLast?_cons_or_prev]
    intro hsign d hd hink
    by_cases hnil : left = []
    · rw [kept.left_nil hsign hnil, ← hnil]
      exact hd
    · rw [← List.singleton_append, List.getLast?_append_of_ne_nil _ hnil] at hd
      exact hend (kept.left_touches hsign d hd hink)
  · rw [getLast?_cons_or_prev]
    exact kept.right_touches

/-- One assignment further behind, which no equals sign touches. -/
theorem assign {lead trail : List Char} (hlead : allBlank lead = true)
    (htrail : allBlank trail = true) (hapart : (trail ++ (left ++ ['='])).head? ≠ some '=')
    (kept : SignKept ('=' :: trail).getLast? left right left' right') :
    SignKept prev (lead ++ '=' :: (trail ++ left)) right (' ' :: '=' :: ' ' :: left') right' := by
  have hlast : (lead ++ '=' :: (trail ++ left)).getLast?.or prev =
      left.getLast?.or ('=' :: trail).getLast? := by
    rw [← List.cons_append, ← List.append_assoc, List.getLast?_append, List.getLast?_append,
      Option.or_assoc, Option.or_assoc, getLast?_cons_or_prev, ← getLast?_cons_or]
  have hend {c : Char} (h : left'.getLast? = some c) :
      (' ' :: '=' :: ' ' :: left').getLast? = some c := by
    rw [getLast?_cons_or, getLast?_cons_or, getLast?_cons_or, h]
    rfl
  constructor
  · rw [Spacing.ink_assign hlead htrail, ← kept.ink_left]
    rfl
  · exact kept.ink_right
  · intro _ hnil
    cases lead <;> cases hnil
  · rw [hlast]
    exact fun hsign => ⟨hend (kept.spaced hsign).1, (kept.spaced hsign).2⟩
  · rw [hlast]
    intro hsign c hc hink
    rw [← List.cons_append, ← List.append_assoc] at hc
    by_cases hnil : left = []
    · subst hnil
      rw [List.append_nil, List.getLast?_append] at hc
      rcases List.eq_nil_or_concat trail with rfl | ⟨front, b, rfl⟩
      · exact absurd rfl hapart
      · rw [List.concat_eq_append] at htrail hc
        rw [← List.cons_append, List.getLast?_concat, Option.some_or] at hc
        obtain rfl := Option.some.inj hc
        rw [isBlank_of_allBlank_concat htrail] at hink
        cases hink
    · rw [List.getLast?_append_of_ne_nil _ hnil] at hc
      exact hend (kept.left_touches hsign c hc hink)
  · rw [hlast]
    exact kept.right_touches

end SignKept

theorem sign_not_mem {cs : List Char} (h : allBlank cs = true) : '=' ∉ cs := fun hmem =>
  absurd (List.all_eq_true.1 h '=' hmem) (by decide)

theorem exists_append_of_not_mem {c : Char} {front rest left right : List Char} (hc : c ∉ front)
    (h : front ++ rest = left ++ c :: right) :
    ∃ between, left = front ++ between ∧ rest = between ++ c :: right := by
  obtain h | ⟨between, rfl, hright⟩ := List.append_eq_append_iff.1 h
  · exact h
  · cases between with
    | nil => exact ⟨[], by rw [List.append_nil, List.append_nil], hright.symm⟩
    | cons d between =>
      obtain ⟨rfl, -⟩ := List.cons.inj hright
      exact absurd (List.mem_append_right left List.mem_cons_self) hc

/-- The equals signs of a text with an assignment in front: the assignment's, and those behind. -/
theorem sign_cases {lead trail rest left right : List Char} (hlead : allBlank lead = true)
    (htrail : allBlank trail = true)
    (h : lead ++ '=' :: (trail ++ rest) = left ++ '=' :: right) :
    (left = lead ∧ right = trail ++ rest) ∨
    ∃ between, left = lead ++ '=' :: (trail ++ between) ∧ rest = between ++ '=' :: right := by
  obtain ⟨behind, rfl, hbehind⟩ := exists_append_of_not_mem (sign_not_mem hlead) h
  cases behind with
  | nil => exact .inl ⟨List.append_nil lead, (List.cons.inj hbehind).2.symm⟩
  | cons c behind =>
    have hcons := List.cons.inj hbehind
    obtain ⟨between, rfl, hrest⟩ := exists_append_of_not_mem (sign_not_mem htrail) hcons.2
    exact .inr ⟨between, by rw [← hcons.1], hrest⟩

theorem Spacing.signKept {prev : Option Char} {cs out : List Char} (h : Spacing prev cs out) :
    ∀ {left right : List Char}, cs = left ++ '=' :: right →
      ∃ left' right', out = left' ++ '=' :: right' ∧ SignKept prev left right left' right' := by
  induction h with
  | nil =>
    intro left right heq
    cases left <;> cases heq
  | @assign prev lead trail rest out hlead htrail hstop hlone tail ih =>
    intro left right heq
    obtain ⟨rfl, rfl⟩ | ⟨left, rfl, rfl⟩ := sign_cases hlead htrail heq
    · refine ⟨[' '], ' ' :: out, rfl, (ink_eq_nil_iff.2 hlead).symm, ?_, absurd hlone,
        fun _ => ⟨rfl, rfl⟩, absurd hlone, absurd hlone⟩
      rw [ink_cons_of_blank (by decide), tail.ink_eq, ink_append, ink_eq_nil_iff.2 htrail]
      rfl
    · obtain ⟨left', right', rfl, kept⟩ := ih rfl
      refine ⟨' ' :: '=' :: ' ' :: left', right', rfl, kept.assign hlead htrail ?_⟩
      have hfree := hlone.right_free
      rw [List.head?_append] at hfree ⊢
      cases left <;> exact hfree
  | @keep prev c cs out hkept tail ih =>
    intro left right heq
    cases left with
    | nil =>
      obtain ⟨rfl, rfl⟩ := List.cons.inj heq
      have hsign : ¬ Lone prev cs.head? := fun hlone => hkept ⟨[], cs, rfl, rfl, hlone⟩
      refine ⟨[], out, rfl, rfl, tail.ink_eq, fun _ _ => rfl, fun hlone => absurd hlone hsign,
        fun _ => nofun, ?_⟩
      intro _ d hd hink
      obtain ⟨rest, rfl⟩ := List.head?_eq_some_iff.1 hd
      exact tail.head?_of_ink hink
    | cons c left =>
      obtain ⟨rfl, hcs⟩ := List.cons.inj heq
      obtain ⟨left', right', rfl, kept⟩ := ih hcs
      exact ⟨c :: left', right', rfl, kept.keep⟩

/-! ## What is evenly spaced stays -/

theorem respaced_lead {prev : Option Char} {lead rest : List Char} (hlead : allBlank lead = true)
    (hlone : Lone (lead.getLast?.or prev) rest.head?) : respaced prev (lead ++ '=' :: rest) =
      ' ' :: '=' :: ' ' ::
        respaced ('=' :: rest.takeWhile isBlank).getLast? (rest.dropWhile isBlank) := by
  obtain ⟨trail, rest, rfl, htake, hdrop, hblank, hstop⟩ := exists_run isBlank rest
  rw [htake, hdrop]
  exact respaced_assign hlead (List.all_eq_true.2 hblank) hstop hlone

namespace Spacing

variable {prev : Option Char} {cs out : List Char}

theorem startsAssignment (h : Spacing prev cs out) : ∀ {q : Option Char},
    (cs.head? = some '=' → q.any joinsEquals = prev.any joinsEquals) →
    StartsAssignment q out → StartsAssignment prev cs := by
  induction h with
  | nil =>
    rintro q - ⟨lead, rest, heq, -⟩
    cases lead <;> cases heq
  | assign hlead _ _ hlone _ _ => exact fun _ _ => ⟨_, _, rfl, hlead, hlone⟩
  | @keep prev c cs out kept tail ih =>
    rintro q hq ⟨lead, rest, heq, hlead, hlone⟩
    cases lead with
    | nil =>
      obtain ⟨rfl, rfl⟩ := List.cons.inj heq
      refine ⟨[], cs, rfl, rfl, (hq rfl).symm.trans hlone.left_free, fun hsign => ?_⟩
      obtain ⟨behind, rfl⟩ := List.head?_eq_some_iff.1 hsign
      exact hlone.right_free (tail.head?_of_ink (by decide))
    | cons b lead =>
      obtain ⟨rfl, rfl⟩ := List.cons.inj heq
      rw [allBlank_cons] at hlead
      rw [getLast?_cons_or_prev] at hlone
      obtain ⟨lead', rest', rfl, hlead', hlone'⟩ :=
        ih (fun _ => rfl) ⟨lead, rest, rfl, hlead.2, hlone⟩
      exact ⟨c :: lead', rest', rfl, allBlank_cons.2 ⟨hlead.1, hlead'⟩,
        (getLast?_cons_or_prev prev c lead').symm ▸ hlone'⟩

/-- What comes out is evenly spaced, also behind another character, unless it makes an operator
of an equals sign in front. -/
theorem respaced_eq (h : Spacing prev cs out) : ∀ {q : Option Char},
    (cs.head? = some '=' → q.any joinsEquals = prev.any joinsEquals) → respaced q out = out := by
  induction h with
  | nil => exact fun _ => respaced_nil _
  | @keep prev c cs out kept tail ih =>
    intro q hq
    rw [respaced_keep (mt ((Spacing.keep kept tail).startsAssignment hq) kept), ih fun _ => rfl]
  | @assign prev lead trail rest out hlead htrail hstop hlone tail ih =>
    intro q _
    have hout : respaced (some ' ') out = out := ih fun hsign => by
      rcases List.eq_nil_or_concat trail with rfl | ⟨front, b, rfl⟩
      · exact absurd hsign hlone.right_free
      · rw [List.concat_eq_append] at htrail ⊢
        rw [← List.cons_append, List.getLast?_concat, Option.any_some, Option.any_some,
          not_joinsEquals_of_isBlank (isBlank_of_allBlank_concat htrail)]
        rfl
    have hspace (q : Option Char) (ds : List Char) :
        respaced q ([' '] ++ '=' :: ' ' :: ds) = _ := respaced_lead rfl ⟨rfl, by simp⟩
    have hsign (ds : List Char) :
        respaced (some ' ') ([] ++ '=' :: ' ' :: ds) = _ := respaced_lead rfl ⟨rfl, by simp⟩
    suffices hrest : respaced ('=' :: ' ' :: out.takeWhile isBlank).getLast?
        (out.dropWhile isBlank) = out by
      refine (hspace q out).trans ?_
      rw [List.takeWhile_cons_of_pos rfl, List.dropWhile_cons_of_pos rfl, hrest]
    cases tail with
    | nil => exact respaced_nil _
    | @keep _ c _ out _ _ =>
      have hc : ¬ isBlank c = true := by simp [hstop c rfl]
      rw [List.takeWhile_cons_of_neg hc, List.dropWhile_cons_of_neg hc]
      exact hout
    | @assign _ _ _ _ out _ _ _ _ _ =>
      -- The blank between the two assignments goes to the first, and the second needs none.
      exact (hsign out).trans ((hspace (some ' ') out).symm.trans hout)

end Spacing

/-! ## Texts in pieces -/

theorem Spacing.eq_respaced {prev : Option Char} {cs out : List Char} (h : Spacing prev cs out) :
    out = respaced prev cs := by
  induction h with
  | nil => rw [respaced_nil]
  | assign hlead htrail hstop hlone _ ih => rw [respaced_assign hlead htrail hstop hlone, ← ih]
  | keep kept _ ih => rw [respaced_keep kept, ← ih]

section
variable {c : Char} (hink : isBlank c = false) (hsign : c ≠ '=')
include hink hsign

theorem StartsAssignment.of_append {prev : Option Char} {cs ds : List Char}
    (h : StartsAssignment prev (cs ++ c :: ds)) : StartsAssignment prev cs := by
  obtain ⟨lead, rest, heq, hlead, hlone⟩ := h
  have hrun : c ∉ lead ++ ['='] := fun hmem => by
    rcases List.mem_append.1 hmem with hmem | hmem
    · rw [List.all_eq_true.1 hlead c hmem] at hink
      cases hink
    · exact hsign (List.mem_singleton.1 hmem)
  have hcut : lead ++ ['='] ++ rest = cs ++ c :: ds := by
    rw [List.append_assoc, List.singleton_append, heq]
  obtain ⟨between, rfl, rfl⟩ := exists_append_of_not_mem hrun hcut
  refine ⟨lead, between, by rw [List.append_assoc, List.singleton_append], hlead,
    hlone.left_free, ?_⟩
  cases between with
  | nil => nofun
  | cons d between => exact hlone.right_free

/-- A character of ink that is no equals sign keeps the assignments on its sides apart. -/
theorem Spacing.append {prev : Option Char} {cs out ds out' : List Char}
    (h : Spacing prev cs out) (h' : Spacing (some c) ds out') :
    Spacing prev (cs ++ c :: ds) (out ++ c :: out') := by
  induction h with
  | nil =>
    refine .keep (fun hstart => ?_) h'
    obtain ⟨lead, rest, heq, -⟩ :=
      StartsAssignment.of_append hink hsign (List.nil_append (c :: ds) ▸ hstart)
    cases lead <;> cases heq
  | @assign prev lead trail rest out hlead htrail hstop hlone _ ih =>
    rw [List.append_assoc, List.cons_append, List.append_assoc]
    refine .assign hlead htrail ?_ ⟨hlone.left_free, ?_⟩ ih
    · cases rest with
      | nil => exact stopsAt_cons hink ds
      | cons d rest => exact hstop
    · rw [← List.append_assoc]
      cases hbehind : trail ++ rest with
      | nil => exact fun hc => hsign (Option.some.inj hc)
      | cons d behind =>
        have hfree := hlone.right_free
        rw [hbehind] at hfree
        exact hfree
  | @keep _ d cs _ kept _ ih =>
    refine .keep (fun hstart => kept ?_) ih
    exact StartsAssignment.of_append hink hsign (List.cons_append ▸ hstart)

theorem respaced_append (prev : Option Char) (cs ds : List Char) :
    respaced prev (cs ++ c :: ds) = respaced prev cs ++ c :: respaced (some c) ds :=
  ((spacing_respaced prev cs).append hink hsign (spacing_respaced (some c) ds)).eq_respaced.symm

end

/-- Only blanks come and go where assignments are spaced: a sign that is an assignment stands
between spaces, any other sign keeps the ink it touches, and no second pass finds anything. -/
theorem spaceDefaults_spacing (args : List Char) :
    ink (spaceDefaults args) = ink args ∧
    (∀ left right, args = left ++ '=' :: right → ∃ left' right',
      spaceDefaults args = left' ++ '=' :: right' ∧
      ink left' = ink left ∧ ink right' = ink right ∧
      (Lone left.getLast? right.head? → left'.getLast? = some ' ' ∧ right'.head? = some ' ') ∧
      (¬ Lone left.getLast? right.head? →
        (∀ c, left.getLast? = some c → isBlank c = false → left'.getLast? = some c) ∧
        (∀ c, right.head? = some c → isBlank c = false → right'.head? = some c))) ∧
    spaceDefaults (spaceDefaults args) = spaceDefaults args := by
  have h : Spacing none args (spaceDefaults args) := spacing_respaced none args
  refine ⟨h.ink_eq, fun left right hargs => ?_, h.respaced_eq fun _ => rfl⟩
  obtain ⟨left', right', hout, kept⟩ := h.signKept hargs
  have hspaced := kept.spaced
  have hleft := kept.left_touches
  have hright := kept.right_touches
  rw [Option.or_none] at hspaced hleft hright
  exact ⟨left', right', hout, kept.ink_left, kept.ink_right, hspaced,
    fun hsign => ⟨hleft hsign, hright hsign⟩⟩

theorem spaceDefaults_spacing_twoSigns :
    (∃ left right, spaceDefaults "a<=b,n =0".toList = left ++ '=' :: right ∧
      ink left = "a<=b,n".toList ∧ left.getLast? = some ' ' ∧ right.head? = some ' ') ∧
    (∃ left right, spaceDefaults "a<=b,n =0".toList = left ++ '=' :: right ∧
      ink left = "a<".toList ∧ left.getLast? = some '<' ∧ right.head? = some 'b') := by
  obtain ⟨-, hsigns, -⟩ := spaceDefaults_spacing "a<=b,n =0".toList
  constructor
  · obtain ⟨left, right, hout, hink, -, hspaced, -⟩ := hsigns "a<=b,n ".toList ['0'] rfl
    exact ⟨left, right, hout, hink, hspaced (by decide)⟩
  · obtain ⟨left, right, hout, hink, -, -, hkept⟩ := hsigns ['a', '<'] "b,n =0".toList rfl
    obtain ⟨hleft, hright⟩ := hkept (by decide)
    exact ⟨left, right, hout, hink, hleft '<' rfl (by decide), hright 'b' rfl (by decide)⟩

end DoxPages
