import DoxPages.Proofs.Links.Edits

/-!
# Runs of plain text

Between the guards and edits of a linked text stand runs of characters in which
nothing was found. The linker finds nothing in such a run alone either, nor in the
front of it up to a bracket: no word goes on over the ends of a run, and what is found
depends on nothing else around it.
-/

namespace DoxPages

open Text

namespace Text

variable {α : Type} {p : Char → Bool} {cs ds : List Char}

theorem stopsAt_append (h : cs ≠ []) : StopsAt p (cs ++ ds) ↔ StopsAt p cs := by
  cases cs with
  | nil => exact absurd rfl h
  | cons c cs => exact Iff.rfl

theorem StopsAt.front (h : StopsAt p (cs ++ ds)) : StopsAt p cs := by
  by_cases hcs : cs = []
  · subst hcs
    exact nofun
  · exact (stopsAt_append hcs).1 h

/-- No word goes on from one text into the next one. -/
def WordsApart (cs ds : List Char) : Prop := ∀ c ∈ cs.getLast?, isWord c = true → StopsAt isWord ds

/-- Nor does a qualified name. -/
def NamesApart (cs ds : List Char) : Prop :=
  ∀ c ∈ cs.getLast?, c ≠ ':' ∧ (isWord c = true → StopsAt isWord ds)

/-- A stretch of a text with no name over its ends. -/
structure Apart (before cs behind : List Char) : Prop where
  front : NamesApart before cs
  back : WordsApart cs behind

theorem Apart.within {before u v behind : List Char} (h : Apart before (u ++ cs ++ v) behind)
    (hcs : Apart u cs v) : Apart (before ++ u) cs (v ++ behind) where
  front c hc := by
    by_cases hu : u = []
    · subst hu
      rw [List.append_nil] at hc
      obtain ⟨hcolon, hword⟩ := h.front c hc
      exact ⟨hcolon, fun hc => (hword hc).front⟩
    · rw [List.getLast?_append_of_ne_nil before hu] at hc
      exact hcs.front c hc
  back c hc hword := by
    by_cases hv : v = []
    · subst hv
      refine h.back c ?_ hword
      rw [List.append_nil]
      exact List.mem_getLast?_append_of_mem_getLast? hc
    · exact (stopsAt_append hv).2 (hcs.back c hc hword)

theorem Pattern.Clear.within {p : Pattern α} {before u v behind : List Char}
    (h : p.Clear before (u ++ cs ++ v) behind) : p.Clear (before ++ u) cs (v ++ behind) := by
  intro a b hab hb
  have hnone := h (u ++ a) (b ++ v) (by simp [hab]) (List.append_ne_nil_of_left_ne_nil hb v)
  simpa using hnone

theorem split_congr {find : Finder α} {prev prev' : Option Char}
    (h : find prev cs = find prev' cs) : split find prev cs = split find prev' cs := by
  cases cs with
  | nil => rw [split, split]
  | cons c cs => rw [split, split, h]

end Text

/-! ## Runs of parts -/

namespace Part

/-- The first run of plain characters between other parts, and the runs behind it. -/
def runs : List Part → List Char × List (List Char)
  | [] => ([], [])
  | .plain c :: ps => (c :: (runs ps).1, (runs ps).2)
  | _ :: ps => ([], (runs ps).1 :: (runs ps).2)

def allRuns (ps : List Part) : List (List Char) := (runs ps).1 :: (runs ps).2

theorem runs_plain_append (cs : List Char) (ps : List Part) :
    runs (cs.map plain ++ ps) = (cs ++ (runs ps).1, (runs ps).2) := by
  induction cs with
  | nil => rfl
  | cons c cs ih => rw [List.map_cons, List.cons_append, runs, ih, List.cons_append]

theorem runs_edit (label : List Char) (url : String) (more : List Mark) (ps : List Part) :
    runs (edit label url more :: ps) = ([], allRuns ps) := rfl

theorem runs_cons {q : Part} (hq : ∀ c, q ≠ plain c) (ps : List Part) :
    runs (q :: ps) = ([], allRuns ps) := by
  cases q with
  | plain c => exact absurd rfl (hq c)
  | guard cs => rfl
  | edit label url more => rfl

theorem allRuns_append {q : Part} (hq : ∀ c, q ≠ plain c) (ps qs : List Part) :
    allRuns (ps ++ q :: qs) = allRuns ps ++ allRuns qs := by
  induction ps with
  | nil => rw [List.nil_append, allRuns, runs_cons hq]; rfl
  | cons p ps ih =>
    rw [List.cons_append]
    cases p with
    | plain c =>
      obtain ⟨hfirst, hrest⟩ := List.cons.inj ih
      rw [allRuns, runs, hfirst, hrest]
      rfl
    | guard cs => exact congrArg (List.cons []) ih
    | edit label url more => exact congrArg (List.cons []) ih

/-- Between parts that are not plain, each run is in a gap. -/
theorem exists_gap_of_mem_allRuns {α : Type} {f : List Char → List Part} {g : α → Part}
    (hg : ∀ a c, g a ≠ plain c) {s : Split α} {r : List Char}
    (h : r ∈ allRuns (s.collect f fun a => [g a])) : ∃ gap ∈ s.gaps, r ∈ allRuns (f gap) := by
  induction s with
  | last gap => exact ⟨gap, List.mem_cons_self, h⟩
  | hit gap a rest ih =>
    rw [Split.collect, List.append_assoc, List.singleton_append, allRuns_append (hg a),
      List.mem_append] at h
    rcases h with h | h
    · exact ⟨gap, List.mem_cons_self, h⟩
    · obtain ⟨gap', hgap, hr⟩ := ih h
      exact ⟨gap', List.mem_cons_of_mem _ hgap, hr⟩

end Part

namespace Linker

variable {gap : List Char} {a : IdlName} {rest : Split IdlName}

theorem runs_wordParts_last : Part.runs (wordParts (.last gap)) = (gap, []) := by
  have happend := Part.runs_plain_append gap []
  rwa [List.append_nil, Part.runs, List.append_nil] at happend

theorem wordParts_hit :
    wordParts (.hit gap a rest) = gap.map .plain ++ (a.parts ++ wordParts rest) :=
  List.append_assoc ..

theorem runs_wordParts_linked {url : String} (h : a.url = some url) :
    Part.runs (wordParts (.hit gap a rest)) = (gap, Part.allRuns (wordParts rest)) := by
  rw [wordParts_hit, IdlName.parts, h, Part.runs_plain_append, List.singleton_append,
    Part.runs_edit, List.append_nil]

theorem runs_wordParts_unlinked (h : a.url = none) : Part.runs (wordParts (.hit gap a rest)) =
    (gap ++ (a.text ++ (Part.runs (wordParts rest)).1), (Part.runs (wordParts rest)).2) := by
  rw [wordParts_hit, IdlName.parts, h, Part.runs_plain_append, Part.runs_plain_append]

end Linker

/-- A run, or the front of it up to a bracket. -/
def Front (run front : List Char) : Prop := front = run ∨ ∃ rest, run = front ++ '[' :: rest

theorem Front.append_cases {cs run front : List Char} (h : Front (cs ++ run) front) :
    (∃ rest, cs = front ++ '[' :: rest) ∨ ∃ front', front = cs ++ front' ∧ Front run front' := by
  rcases h with rfl | ⟨rest, h⟩
  · exact .inr ⟨run, rfl, .inl rfl⟩
  · rcases List.append_eq_append_iff.1 h with ⟨as, rfl, rfl⟩ | ⟨bs, rfl, hrest⟩
    · exact .inr ⟨as, rfl, .inr ⟨rest, rfl⟩⟩
    · cases bs with
      | nil => exact .inr ⟨[], by simp, .inr ⟨rest, hrest.symm⟩⟩
      | cons c bs =>
        obtain ⟨rfl, -⟩ := List.cons.inj hrest
        exact .inl ⟨bs, rfl⟩

/-! ## Identifiers in a run -/

namespace IdlName

variable {table : LinkTable} {before behind name member : List Char}

theorem find_eq_none_iff {prev : Option Char} {cs : List Char} :
    find table prev cs = none ↔ prev.any isWord = true ∨ StopsAt isWord cs := by
  obtain ⟨word, rest, rfl, htake, hdrop, hword, hstop⟩ := exists_run isWord cs
  unfold find
  split
  · rename_i hprev
    exact ⟨fun _ => .inl hprev, fun _ => rfl⟩
  · rename_i hprev
    simp only [spanWord, htake, hdrop]
    cases word with
    | nil => exact ⟨fun _ => .inr hstop, fun _ => rfl⟩
    | cons c word =>
      refine ⟨fun h => by simp at h, fun h => ?_⟩
      rcases h with h | h
      · exact absurd h hprev
      · have hc := h c rfl
        rw [hword c List.mem_cons_self] at hc
        cases hc

theorem noneAt_iff {cs : List Char} : (identifiers table).NoneAt before cs ↔
    before.getLast?.any isWord = true ∨ StopsAt isWord cs := by
  rw [(identifiers_foundBy table).noneAt_iff, find_eq_none_iff]

/-- Whether an identifier stands in a gap does not depend on what is behind. -/
theorem clear_front {gap rest : List Char}
    (h : (identifiers table).Clear before (gap ++ rest) behind) (behind' : List Char) :
    (identifiers table).Clear before gap behind' := by
  intro u v huv hv
  have hnone := h u (v ++ rest) (by rw [huv, List.append_assoc]) (by simp [hv])
  rw [noneAt_iff, List.append_assoc, stopsAt_append hv] at hnone
  rwa [noneAt_iff, stopsAt_append hv]

theorem memberBefore_front {rest : List Char} (h : MemberBefore member (behind ++ rest)) :
    MemberBefore member behind := by
  cases h with
  | none hcolons =>
    refine .none fun tail htail => ?_
    refine (hcolons (tail ++ rest) ?_).front
    rw [htail]
    rfl
  | named hne hchars hwhole hparens =>
    exact .named hne hchars hwhole.front fun h => hparens (h.trans (List.prefix_append _ _))
  | called hne hchars => exact .called hne hchars

theorem Occurs.front {rest : List Char} (h : Occurs before name member (behind ++ rest)) :
    Occurs before name member behind where
  apart := h.apart
  ne_nil := h.ne_nil
  chars := h.chars
  whole := by
    have hwhole := h.whole
    rw [← List.append_assoc] at hwhole
    exact hwhole.front
  member := memberBefore_front h.member

theorem Occurs.namesApart (h : Occurs before name member behind) :
    NamesApart (before ++ (name ++ member)) behind := by
  have hcolon {c : Char} (hc : isWord c = true) : c ≠ ':' := by
    rintro rfl
    exact absurd hc (by decide)
  have hlast {word : List Char} {c : Char} (hword : ∀ c ∈ word, isWord c = true)
      (hc : c ∈ word.getLast?) : isWord c = true := hword c (List.mem_of_getLast? hc)
  have hne : name ++ member ≠ [] := List.append_ne_nil_of_left_ne_nil h.ne_nil _
  intro c hc
  rw [List.getLast?_append_of_ne_nil _ hne] at hc
  clear hne
  have hwhole := h.whole
  cases h.member with
  | none _ =>
    rw [List.append_nil] at hc
    exact ⟨hcolon (hlast h.chars hc), fun _ => hwhole⟩
  | @named word _ hne hchars hstop _ =>
    have hword : name ++ ':' :: ':' :: word = name ++ [':', ':'] ++ word := by simp
    rw [hword, List.getLast?_append_of_ne_nil _ hne] at hc
    exact ⟨hcolon (hlast hchars hc), fun _ => hstop⟩
  | @called word _ hne hchars =>
    have hparen : name ++ ':' :: ':' :: (word ++ ['(', ')']) =
        name ++ ':' :: ':' :: (word ++ ['(']) ++ [')'] := by simp
    rw [hparen, List.getLast?_concat] at hc
    obtain rfl := Option.some.inj hc
    exact ⟨by decide, fun hword => absurd hword (by decide)⟩

/-- A stretch of a text that is cut on its own as in the text, and nothing in it is linked. -/
structure Unlinked (table : LinkTable) (before cs behind : List Char) : Prop where
  exists_cut : ∃ s : Split IdlName, s.Leftmost (identifiers table) before ∧
    s.text (identifiers table) = cs ∧ ∀ a ∈ s.finds, a.url = none
  apart : WordsApart (before ++ cs) behind

theorem Unlinked.of_clear {gap cs : List Char}
    (hclear : (identifiers table).Clear before gap behind)
    (hapart : WordsApart (before ++ gap) behind) (hcs : Front gap cs) :
    ∃ rest, gap ++ behind = cs ++ rest ∧ Unlinked table before cs rest := by
  rcases hcs with rfl | ⟨rest, rfl⟩
  · have hclear' := clear_front ((List.append_nil cs).symm ▸ hclear) []
    exact ⟨behind, rfl, ⟨.last cs, .last hclear', rfl, by simp [Split.finds]⟩, hapart⟩
  · refine ⟨'[' :: rest ++ behind, by simp,
      ⟨.last cs, .last (clear_front hclear []), rfl, by simp [Split.finds]⟩, ?_⟩
    intro c _ _
    exact stopsAt_cons (by decide) _

/-- The first run of a gap, or its front, is unlinked. -/
theorem exists_unlinked {words : Split IdlName} {cs : List Char}
    (h : words.Leftmost (identifiers table) before)
    (hcs : Front (Part.runs (Linker.wordParts words)).1 cs) :
    ∃ rest, words.text (identifiers table) = cs ++ rest ∧ Unlinked table before cs rest := by
  induction h generalizing cs with
  | @last before gap clear =>
    rw [Linker.runs_wordParts_last] at hcs
    have hlast := Unlinked.of_clear clear (fun c _ _ => nofun) hcs
    rwa [List.append_nil] at hlast
  | @hit before gap a rest clear occurs tail ih =>
    obtain ⟨name, member, ha, hoccurs⟩ := occurs
    have hstop : WordsApart (before ++ gap) ((identifiers table).text a ++
        rest.text (identifiers table)) := by
      intro c hc hword
      rw [hoccurs.apart c hc] at hword
      cases hword
    have hhere (hfront : Front gap cs) := Unlinked.of_clear clear hstop hfront
    rw [← Split.text_hit] at hhere
    cases hurl : a.url with
    | some url =>
      rw [Linker.runs_wordParts_linked hurl] at hcs
      exact hhere hcs
    | none =>
      -- the run goes on through the find, and the front ends before it or behind it
      rw [Linker.runs_wordParts_unlinked hurl] at hcs
      rcases hcs.append_cases with ⟨rest', hrest'⟩ | ⟨cs', hcs', hfront⟩
      · exact hhere (.inr ⟨rest', hrest'⟩)
      rcases hfront.append_cases with ⟨rest', hrest'⟩ | ⟨cs'', hcs'', hfront⟩
      · have htext : a.text = name ++ member := by rw [ha]
        refine absurd ?_ (hoccurs.not_mem (c := '[') (by decide))
        rw [← htext, hrest']
        exact List.mem_append_right _ List.mem_cons_self
      obtain ⟨behind, hbehind, ⟨s, hs, htext, hnone⟩, hapart⟩ := ih hfront
      have hcut : (Split.hit gap a s).Leftmost (identifiers table) before := by
        refine .hit (clear_front ((List.append_nil gap).symm ▸ clear) _) ?_ hs
        rw [hbehind] at hoccurs
        exact ⟨name, member, ha, htext.symm ▸ hoccurs.front⟩
      subst hcs' hcs''
      refine ⟨behind, ?_, ⟨.hit gap a s, hcut, ?_, List.forall_mem_cons.2 ⟨hurl, hnone⟩⟩, ?_⟩
      · rw [Split.text_hit, hbehind]
        simp [identifiers]
      · rw [Split.text_hit, htext]
        rfl
      · simpa [identifiers] using hapart

structure GoesOn (table : LinkTable) (before : List Char) (words : Split IdlName)
    (front : List Char) (rest : Split IdlName) : Prop where
  text_eq : words.text (identifiers table) = front ++ rest.text (identifiers table)
  leftmost : rest.Leftmost (identifiers table) (before ++ front)
  apart : NamesApart (before ++ front) (rest.text (identifiers table))

/-- A later run starts behind a link. -/
theorem exists_goesOn {words : Split IdlName} {run : List Char}
    (h : words.Leftmost (identifiers table) before)
    (hrun : run ∈ (Part.runs (Linker.wordParts words)).2) :
    ∃ front rest, GoesOn table before words front rest ∧
      run = (Part.runs (Linker.wordParts rest)).1 := by
  induction h with
  | @last before gap clear =>
    rw [Linker.runs_wordParts_last] at hrun
    cases hrun
  | @hit before gap a rest clear occurs tail ih =>
    obtain ⟨name, member, ha, hoccurs⟩ := occurs
    have hhit : GoesOn table before (.hit gap a rest) (gap ++ (identifiers table).text a) rest := by
      refine ⟨?_, ?_, ?_⟩
      · rw [Split.text_hit, List.append_assoc]
      · rwa [← List.append_assoc]
      · rw [show (identifiers table).text a = name ++ member by rw [ha]; rfl, ← List.append_assoc]
        exact hoccurs.namesApart
    have hlater (h : ∃ front rest', GoesOn table (before ++ gap ++ (identifiers table).text a) rest
        front rest' ∧ run = (Part.runs (Linker.wordParts rest')).1) :
        ∃ front rest', GoesOn table before (.hit gap a rest) front rest' ∧
          run = (Part.runs (Linker.wordParts rest')).1 := by
      obtain ⟨front, rest', hrest, hfirst⟩ := h
      refine ⟨gap ++ (identifiers table).text a ++ front, rest', ⟨?_, ?_, ?_⟩, hfirst⟩
      · simp only [hhit.text_eq, hrest.text_eq, List.append_assoc]
      · simpa using hrest.leftmost
      · simpa using hrest.apart
    cases hurl : a.url with
    | none =>
      rw [Linker.runs_wordParts_unlinked hurl] at hrun
      exact hlater (ih hrun)
    | some url =>
      rw [Linker.runs_wordParts_linked hurl] at hrun
      rcases List.mem_cons.1 hrun with hfirst | hrun
      · exact ⟨_, rest, hhit, hfirst⟩
      · exact hlater (ih hrun)

theorem exists_apart_of_mem_allRuns {words : Split IdlName} {run cs : List Char}
    (h : words.Leftmost (identifiers table) []) (hrun : run ∈ Part.allRuns (Linker.wordParts words))
    (hcs : Front run cs) : ∃ u v, words.text (identifiers table) = u ++ cs ++ v ∧ Apart u cs v ∧
      Unlinked table u cs v := by
  obtain ⟨u, rest, hrest, rfl⟩ : ∃ u rest, GoesOn table [] words u rest ∧
      run = (Part.runs (Linker.wordParts rest)).1 := by
    rcases List.mem_cons.1 hrun with hfirst | hrun
    · exact ⟨[], words, ⟨rfl, h, by simp [NamesApart]⟩, hfirst⟩
    · exact exists_goesOn h hrun
  obtain ⟨v, hv, hunlinked⟩ := exists_unlinked hrest.leftmost hcs
  have htext := hrest.text_eq
  have hapart := hrest.apart
  rw [hv] at htext hapart
  refine ⟨u, v, htext.trans (List.append_assoc ..).symm, ⟨?_, ?_⟩, hunlinked⟩
  · intro c hc
    obtain ⟨hcolon, hword⟩ := hapart c hc
    exact ⟨hcolon, fun hc => (hword hc).front⟩
  · intro c hc
    exact hunlinked.apart c (List.mem_getLast?_append_of_mem_getLast? hc)

end IdlName

theorem Linker.linkIdl_eq_self {l : Linker} {before cs behind : List Char}
    (hcs : IdlName.Unlinked l.idl before cs behind) (hapart : Apart before cs behind) :
    l.linkIdl cs = cs := by
  obtain ⟨s, hs, htext, hnone⟩ := hcs.exists_cut
  -- a scan of the stretch alone finds the same
  have hprev : IdlName.find l.idl none cs = IdlName.find l.idl before.getLast? cs := by
    cases hlast : before.getLast? with
    | none => rfl
    | some c =>
      cases hc : isWord c with
      | false => simp [IdlName.find, hc]
      | true =>
        have hstop := (hapart.front c hlast).2 hc
        rw [IdlName.find_eq_none_iff.2 (.inr hstop), IdlName.find_eq_none_iff.2 (.inr hstop)]
  have hcut : split (IdlName.find l.idl) none cs = s := by
    rw [split_congr hprev, ← htext]
    exact (identifiers_foundBy l.idl).split_eq hs
  have hlink (a : IdlName) (ha : a ∈ s.finds) : a.link = a.text := by
    rw [IdlName.link, hnone a ha]
  rw [linkIdl, hcut, Split.write_congr (fun _ _ => rfl) hlink]
  exact htext

/-! ## Names of the standard library in a run -/

namespace TemplateArgs

theorem getLast?_of_balanced {cs : List Char} (h : Balanced cs) : cs.getLast? = some '>' := by
  obtain ⟨inner, rfl, hinner⟩ := h
  have hne : inner ≠ [] := by
    rintro rfl
    exact not_closes_nil Nat.one_pos hinner
  have hconcat := List.dropLast_concat_getLast hne
  generalize inner.dropLast = u at hconcat
  generalize inner.getLast hne = c at hconcat
  subst hconcat
  have hopen := hinner.open_before u [c] rfl (List.cons_ne_nil c [])
  have heven := hinner.even
  rw [List.count_append, List.count_append] at heven
  rw [← List.cons_append, List.getLast?_concat]
  by_cases hc : c = '>'
  · rw [hc]
  · have hcount : [c].count '>' = 0 := List.count_eq_zero.2 (by simpa using Ne.symm hc)
    omega

end TemplateArgs

namespace StdName

variable {table : LinkTable} {before behind : List Char} {s : StdName}

theorem Occurs.namesApart (h : Occurs before s behind) : NamesApart (before ++ s.text) behind := by
  -- the last character of a name that does not end in a word
  have hlast {cs : List Char} {d : Char} (hcs : cs.getLast? = some d) (hd : d ≠ ':')
      (hword : isWord d = false) : NamesApart cs behind := by
    intro c hc
    obtain rfl := Option.some.inj (hcs.symm.trans hc)
    refine ⟨hd, fun hc => ?_⟩
    rw [hword] at hc
    cases hc
  obtain ⟨word, hne, hword, hname⟩ := h.name
  have hwhole := h.whole
  unfold text
  unfold suffixText at hwhole ⊢
  cases hsuffix : s.suffix with
  | some suffix =>
    rw [← List.append_assoc]
    cases suffix with
    | subscript =>
      have hsplit : Suffix.subscript.text = "::operator[".toList ++ [']'] := by decide
      refine hlast ?_ (by decide) (by decide) (d := ']')
      rw [Option.map_some, Option.getD_some, hsplit, ← List.append_assoc, List.getLast?_concat]
    | call member =>
      have hsplit : (Suffix.call member).text = ':' :: ':' :: (member ++ ['(']) ++ [')'] := by
        simp [Suffix.text_call]
      refine hlast ?_ (by decide) (by decide) (d := ')')
      rw [Option.map_some, Option.getD_some, hsplit, ← List.append_assoc, List.getLast?_concat]
  | none =>
    rw [hsuffix, Option.map_none, Option.getD_none, List.append_nil] at hwhole
    rw [Option.map_none, Option.getD_none, List.append_nil]
    rcases h.args with hargs | ⟨hargs, -⟩
    · have hbalanced := TemplateArgs.getLast?_of_balanced hargs
      refine hlast ?_ (by decide) (by decide) (d := '>')
      rw [← List.append_assoc, List.getLast?_append, hbalanced, Option.some_or]
    · rw [hargs, List.nil_append] at hwhole
      rw [hargs, List.append_nil, hname, ← List.append_assoc]
      intro c hc
      rw [List.getLast?_append_of_ne_nil _ hne] at hc
      have hchar := hword c (List.mem_of_getLast? hc)
      refine ⟨?_, fun _ => hwhole⟩
      rintro rfl
      exact absurd hchar (by decide)

theorem noneAt_iff {cs : List Char} : (stdNames table).NoneAt before cs ↔
    ∀ name, name? before.getLast? cs = some name → table.url? (String.ofList name) = none := by
  rw [(stdNames_foundBy table).noneAt_iff]
  cases hname : name? before.getLast? cs with
  | none => simp [find, hname]
  | some name => cases hurl : table.url? (String.ofList name) <;> simp [find, hname, hurl]

theorem name?_of_apart {u v name : List Char} (h : Apart before (u ++ v) behind)
    (hname : name? u.getLast? v = some name) :
    name? (before ++ u).getLast? (v ++ behind) = some name := by
  obtain ⟨hprev, word, rest, hne, hword, rfl, rfl, hstop⟩ := name?_eq_some_iff.1 hname
  refine name?_eq_some_iff.2 ⟨?_, word, rest ++ behind, hne, hword, rfl, by simp, ?_⟩
  · intro c hc
    by_cases hu : u = []
    · subst hu
      rw [List.append_nil] at hc
      obtain ⟨hcolon, hfront⟩ := h.front c hc
      refine ⟨?_, hcolon⟩
      cases hc : isWord c with
      | false => rfl
      | true => exact absurd (hfront hc 's' rfl) (by decide)
    · rw [List.getLast?_append_of_ne_nil before hu] at hc
      exact hprev c hc
  · by_cases hrest : rest = []
    · subst hrest
      obtain ⟨c, hc⟩ := Option.isSome_iff_exists.1 (List.getLast?_isSome.2 hne)
      refine h.back c ?_ (hword c (List.mem_of_getLast? hc))
      rw [List.append_nil, ← List.append_assoc, List.getLast?_append_of_ne_nil _ hne]
      exact hc
    · exact (stopsAt_append hrest).2 hstop

theorem clear_of_apart {cs : List Char} (h : (stdNames table).Clear before cs behind)
    (hapart : Apart before cs behind) : (stdNames table).Clear [] cs [] := by
  intro u v huv hv
  subst huv
  rw [noneAt_iff]
  intro name hname
  rw [List.nil_append, List.append_nil] at hname
  exact noneAt_iff.1 (h u v rfl hv) name (name?_of_apart hapart hname)

theorem exists_apart_of_mem_gaps {names : Split (StdName × String)} {gap : List Char}
    (h : names.Leftmost (stdNames table) before)
    (hbefore : NamesApart before (names.text (stdNames table))) (hgap : gap ∈ names.gaps) :
    ∃ u v, names.text (stdNames table) = u ++ gap ++ v ∧
      (stdNames table).Clear (before ++ u) gap v ∧ Apart (before ++ u) gap v := by
  induction h with
  | @last before cs clear =>
    obtain rfl := List.mem_singleton.1 hgap
    refine ⟨[], [], by simp, by rwa [List.append_nil], ?_, fun c _ _ => nofun⟩
    rwa [List.append_nil]
  | @hit before cs a rest clear occurs tail ih =>
    rcases List.mem_cons.1 hgap with rfl | hgap
    · refine ⟨[], (stdNames table).text a ++ rest.text (stdNames table), ?_, ?_, ?_, ?_⟩
      · simp
      · rwa [List.append_nil]
      · intro c hc
        rw [List.append_nil] at hc
        obtain ⟨hcolon, hword⟩ := hbefore c hc
        rw [Split.text_hit] at hword
        exact ⟨hcolon, fun hc => (hword hc).front⟩
      · intro c hc hword
        have hstop := (occurs.1.apart c (List.mem_getLast?_append_of_mem_getLast? hc)).1
        rw [hword] at hstop
        cases hstop
    · obtain ⟨u, v, htext, hclear, hapart⟩ := ih occurs.1.namesApart hgap
      refine ⟨cs ++ (stdNames table).text a ++ u, v, ?_, ?_, ?_⟩
      · simp [htext]
      · simpa using hclear
      · simpa using hapart

end StdName

/-! ## Runs of a linked text -/

namespace Linker

variable {l : Linker}

theorem linkPlain_eq_self {before cs behind : List Char}
    (hclear : (stdNames l.std).Clear before cs behind) (hapart : Apart before cs behind)
    (hcs : l.linkIdl cs = cs) : l.linkPlain cs = cs := by
  have hcut : split (StdName.find l.std) none cs = .last cs :=
    (stdNames_foundBy l.std).split_eq (.last (StdName.clear_of_apart hclear hapart))
  rw [linkPlain, hcut]
  exact hcs

/-- The linker leaves a run of plain characters, and the front of one, as it is. -/
theorem linkPlain_of_mem_allRuns {cs run front : List Char} (hrun : run ∈ Part.allRuns (l.parts cs))
    (hfront : Front run front) : l.linkPlain front = front := by
  have hguard (guard : List Char) (c : Char) : Part.guard guard ≠ .plain c := by
    intro h
    cases h
  have hedit (a : StdName × String) (c : Char) : a.1.edit l.std a.2 ≠ .plain c := by
    obtain ⟨label, url, more, hedit⟩ := a.1.edit_eq l.std a.2
    rw [hedit]
    intro h
    cases h
  obtain ⟨piece, -, hrun⟩ := Part.exists_gap_of_mem_allRuns hguard hrun
  obtain ⟨gap, hgap, hrun⟩ := Part.exists_gap_of_mem_allRuns hedit hrun
  -- the run in its gap, and the gap in its piece
  obtain ⟨htext, hleftmost⟩ := (identifiers_foundBy l.idl).leftmost_split [] gap
  obtain ⟨u, v, huv, hapart, hunlinked⟩ :=
    IdlName.exists_apart_of_mem_allRuns hleftmost hrun hfront
  obtain rfl := htext.symm.trans huv
  obtain ⟨u', v', -, hclear, hapart'⟩ := StdName.exists_apart_of_mem_gaps
    ((stdNames_foundBy l.std).leftmost_split [] piece).2 (by simp [NamesApart]) hgap
  exact linkPlain_eq_self hclear.within (hapart'.within hapart) (linkIdl_eq_self hunlinked hapart)

end Linker

end DoxPages
