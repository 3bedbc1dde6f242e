import DoxPages.Proofs.Links.Keeping
import DoxPages.Proofs.Links.TemplateArgs
import DoxPages.Proofs.Text.Cuts
import DoxPages.Proofs.Text.Strip

/-!
# What the linker looks for

The three patterns of the linker, each told by the texts around a find: `guards` are
links and code spans, `stdNames` linked names of the standard library with what belongs
to them, and `identifiers` words with the member behind them. The finders find them.
-/

namespace DoxPages

open Text

/-! ## Links and code spans -/

inductive IsGuard : List Char → Prop
  | link {label target : List Char} (label_chars : ∀ c ∈ label, c ≠ ']' ∧ c ≠ '\n')
      (target_chars : ∀ c ∈ target, c ≠ ')' ∧ isBlank c = false) :
      IsGuard ('[' :: (label ++ ']' :: '(' :: (target ++ [')'])))
  | code {code : List Char} (code_chars : ∀ c ∈ code, c ≠ '`' ∧ c ≠ '\n') :
      IsGuard ('`' :: (code ++ ['`']))

def guards : Pattern (List Char) where
  text := id
  occurs _ guard _ := IsGuard guard

theorem exists_guard_of_protectedLength? {cs : List Char} {n : Nat}
    (h : protectedLength? cs = some n) :
    ∃ guard behind, cs = guard ++ behind ∧ n = guard.length ∧ IsGuard guard := by
  unfold protectedLength? at h
  split at h
  · rename_i cs
    obtain ⟨label, rest, rfl, htake, -, hlabel, -⟩ :=
      exists_run (fun c => c ≠ ']' && c ≠ '\n') cs
    simp only [htake, List.drop_left] at h
    split at h
    · rename_i ds
      obtain ⟨target, rest, rfl, htake, -, htarget, -⟩ :=
        exists_run (fun c => c ≠ ')' && !isBlank c) ds
      simp only [htake, List.drop_left, Option.ite_none_right_eq_some, Option.some.injEq] at h
      obtain ⟨hclose, rfl⟩ := h
      cases rest with
      | nil => cases hclose
      | cons c behind =>
        obtain rfl := Option.some.inj hclose
        refine ⟨_, behind, ?_, ?_, .link (by simpa using hlabel) (by simpa using htarget)⟩
        · simp
        · simp
          omega
    · cases h
  · rename_i cs
    obtain ⟨code, rest, rfl, htake, -, hcode, -⟩ :=
      exists_run (fun c => c ≠ '`' && c ≠ '\n') cs
    simp only [htake, List.drop_left, Option.ite_none_right_eq_some, Option.some.injEq] at h
    obtain ⟨hclose, rfl⟩ := h
    cases rest with
    | nil => cases hclose
    | cons c behind =>
      obtain rfl := Option.some.inj hclose
      refine ⟨_, behind, ?_, ?_, .code (by simpa using hcode)⟩
      · simp
      · simp
  · cases h

theorem protectedLength?_of_isGuard {guard : List Char} (h : IsGuard guard)
    (behind : List Char) : protectedLength? (guard ++ behind) = some guard.length := by
  cases h with
  | @link label target hlabel htarget =>
    have hbracket : StopsAt (fun c => c ≠ ']' && c ≠ '\n')
        (']' :: '(' :: (target ++ ')' :: behind)) := stopsAt_cons (by decide) _
    have htake := (takeWhile_append_of_stopsAt (by simpa using hlabel) hbracket).1
    have hparen : StopsAt (fun c => c ≠ ')' && !isBlank c) (')' :: behind) :=
      stopsAt_cons (by decide) _
    have htake' := (takeWhile_append_of_stopsAt (by simpa using htarget) hparen).1
    have happend : '[' :: (label ++ ']' :: '(' :: (target ++ [')'])) ++ behind =
        '[' :: (label ++ ']' :: '(' :: (target ++ ')' :: behind)) := by simp
    rw [happend, protectedLength?]
    simp only [htake, List.drop_left, htake', List.head?_cons, if_true]
    simp
    omega
  | @code code hcode =>
    have hquote : StopsAt (fun c => c ≠ '`' && c ≠ '\n') ('`' :: behind) :=
      stopsAt_cons (by decide) _
    have htake := (takeWhile_append_of_stopsAt (by simpa using hcode) hquote).1
    have happend : '`' :: (code ++ ['`']) ++ behind = '`' :: (code ++ '`' :: behind) := by simp
    rw [happend, protectedLength?]
    simp only [htake, List.drop_left, List.head?_cons, if_true]
    simp

theorem guards_foundBy : guards.FoundBy findProtected where
  text_ne_nil h := by cases h <;> exact List.cons_ne_nil _ _
  sound h := by
    obtain ⟨n, hn, heq⟩ := Option.map_eq_some_iff.1 h
    obtain ⟨guard, behind, rfl, rfl, hguard⟩ := exists_guard_of_protectedLength? hn
    rw [List.take_left] at heq
    obtain ⟨rfl, rfl⟩ := Prod.mk.inj heq
    exact ⟨behind, rfl, rfl, hguard⟩
  complete {before guard behind} h := by
    show (protectedLength? (guard ++ behind)).map _ = _
    rw [protectedLength?_of_isGuard h, Option.map_some]
    exact congrArg (fun m => some (m, guard.length)) (List.take_left ..)

/-! ## Names of the standard library -/

namespace Suffix

def WellFormed : Suffix → Prop
  | subscript => True
  | call member => member ≠ [] ∧ ∀ c ∈ member, isWord c = true

theorem not_subscript_of_call {member rest : List Char} (h : ∀ c ∈ member, isWord c = true) :
    ¬ "operator[]".toList <+: member ++ '(' :: rest := by
  rintro ⟨tail, htail⟩
  -- both sides start with a word, which is `operator` and the member
  have hparen : isWord '(' = false := by decide
  have hmember := takeWhile_append_of_stopsAt h (stopsAt_cons hparen rest)
  have hword : "operator".toList.all isWord = true := by decide
  have hbracket : isWord '[' = false := by decide
  have hoperator := takeWhile_append_of_stopsAt (List.all_eq_true.1 hword)
    (stopsAt_cons hbracket (']' :: tail))
  have hsplit : "operator[]".toList ++ tail = "operator".toList ++ '[' :: (']' :: tail) := rfl
  rw [← htail, hsplit, hoperator.2] at hmember
  cases hmember.2

theorem ofChars?_eq_some_iff {cs : List Char} {s : Suffix} :
    ofChars? cs = some s ↔ s.WellFormed ∧ s.text <+: cs := by
  constructor
  · intro h
    refine ⟨?_, text_prefix h⟩
    unfold ofChars? at h
    split at h
    · rename_i cs
      split at h
      · obtain rfl := Option.some.inj h
        trivial
      · obtain ⟨member, rest, rfl, htake, hdrop, hmember, -⟩ := exists_run isWord cs
        simp only [spanWord, htake, hdrop] at h
        split at h
        · obtain rfl := Option.some.inj h
          exact ⟨List.cons_ne_nil _ _, hmember⟩
        · cases h
    · cases h
  · rintro ⟨hwell, rest, rfl⟩
    cases s with
    | subscript =>
      rw [text_subscript, List.append_assoc, List.cons_append, List.cons_append, List.nil_append,
        ofChars?, if_pos (List.isPrefixOf_iff_prefix.2 (List.prefix_append _ _))]
    | call member =>
      obtain ⟨hne, hmember⟩ := hwell
      have hparen : isWord '(' = false := by decide
      have hspan := takeWhile_append_of_stopsAt hmember (stopsAt_cons hparen (')' :: rest))
      have happend : (call member).text ++ rest = ':' :: ':' :: (member ++ '(' :: ')' :: rest) := by
        simp [text_call]
      rw [happend, ofChars?, if_neg (fun h => not_subscript_of_call hmember
        (List.isPrefixOf_iff_prefix.1 h))]
      simp only [spanWord, hspan.1, hspan.2]
      cases member with
      | nil => exact absurd rfl hne
      | cons c member => rfl

/-- What belongs to a name in front of a text: a suffix, or none if the text starts with none. -/
def Behind (suffix : Option Suffix) (behind : List Char) : Prop :=
  match suffix with
  | some s => s.WellFormed
  | none => ∀ s : Suffix, s.WellFormed → ¬ s.text <+: behind

end Suffix

namespace TemplateArgs

/-- The argument list in front of a text, empty if none is closed there. -/
def Before (args behind : List Char) : Prop :=
  Balanced args ∨ args = [] ∧ ∀ u v, behind = u ++ v → ¬ Balanced u

end TemplateArgs

namespace StdName

/-- Where a name of the standard library stands. It takes the arguments and the suffix that
follow. -/
structure Occurs (before : List Char) (s : StdName) (behind : List Char) : Prop where
  apart : ∀ c ∈ before.getLast?, isWord c = false ∧ c ≠ ':'
  name : ∃ word, word ≠ [] ∧ (∀ c ∈ word, isWord c = true) ∧ s.name = "std::".toList ++ word
  whole : StopsAt isWord (s.args ++ s.suffixText ++ behind)
  args : TemplateArgs.Before s.args (s.suffixText ++ behind)
  suffix : Suffix.Behind s.suffix behind

theorem name?_eq_some_iff {prev : Option Char} {cs name : List Char} :
    name? prev cs = some name ↔ (∀ c ∈ prev, isWord c = false ∧ c ≠ ':') ∧
      ∃ word behind, word ≠ [] ∧ (∀ c ∈ word, isWord c = true) ∧
        name = "std::".toList ++ word ∧ cs = name ++ behind ∧ StopsAt isWord behind := by
  have hprev : (prev.any fun c => isWord c || c == ':') = true ↔
      ¬ ∀ c ∈ prev, isWord c = false ∧ c ≠ ':' := by
    cases prev with
    | none => simp
    | some c => cases hc : isWord c <;> simp [hc]
  unfold name?
  constructor
  · intro h
    split at h
    · cases h
    · rename_i hapart
      rw [hprev, Classical.not_not] at hapart
      split at h
      · rename_i hstd
        obtain ⟨rest, rfl⟩ := List.isPrefixOf_iff_prefix.1 hstd
        obtain ⟨word, behind, rfl, htake, -, hword, hstop⟩ := exists_run isWord rest
        rw [show ("std::".toList ++ (word ++ behind)).drop 5 = word ++ behind from rfl, htake] at h
        split at h
        · cases h
        · rename_i hne
          obtain rfl := Option.some.inj h
          exact ⟨hapart, word, behind, hne, hword, rfl, (List.append_assoc ..).symm, hstop⟩
      · cases h
  · rintro ⟨hapart, word, behind, hne, hword, rfl, rfl, hstop⟩
    rw [if_neg (by rw [hprev, Classical.not_not]; exact hapart), List.append_assoc,
      if_pos (List.isPrefixOf_iff_prefix.2 (List.prefix_append _ _)),
      show ("std::".toList ++ (word ++ behind)).drop 5 = word ++ behind from rfl,
      (takeWhile_append_of_stopsAt hword hstop).1]
    cases word with
    | nil => exact absurd rfl hne
    | cons c word => rfl

end StdName

/-- Names of the standard library that have a page in a table. The address is that of the page
behind the one that all pages share. -/
def stdNames (table : LinkTable) : Pattern (StdName × String) where
  text a := a.1.text
  occurs before a behind := a.1.Occurs before behind ∧
    ∃ page, table.pages.lookup (String.ofList a.1.name) = some page ∧ a.2 = table.base ++ page

theorem LinkTable.url?_eq_some_iff {table : LinkTable} {name url : String} :
    table.url? name = some url ↔
      ∃ page, table.pages.lookup name = some page ∧ url = table.base ++ page := by
  rw [url?, Option.map_eq_some_iff]
  exact exists_congr fun page => and_congr_right fun _ => eq_comm

namespace TemplateArgs

theorem take_length?_eq_iff {args behind cs : List Char} (hcs : cs = args ++ behind) :
    cs.take ((length? cs).getD 0) = args ↔ Before args behind := by
  subst hcs
  cases hlength : length? (args ++ behind) with
  | none =>
    have hnone (u v : List Char) (huv : args ++ behind = u ++ v) : ¬ Balanced u := by
      intro hu
      have hsome := length?_eq_some_iff.2 ⟨u, v, huv, rfl, hu⟩
      rw [hlength] at hsome
      cases hsome
    rw [Option.getD_none, List.take_zero]
    constructor
    · rintro rfl
      exact .inr ⟨rfl, hnone⟩
    · rintro (hargs | ⟨rfl, -⟩)
      · exact absurd hargs (hnone args behind rfl)
      · rfl
  | some n =>
    obtain ⟨u, v, huv, rfl, hu⟩ := length?_eq_some_iff.1 hlength
    rw [Option.getD_some, huv, List.take_left]
    constructor
    · rintro rfl
      exact .inl hu
    · rintro (hargs | ⟨rfl, hnone⟩)
      · have hsome := length?_eq_some_iff.2 ⟨args, behind, rfl, rfl, hargs⟩
        rw [hlength, Option.some.injEq] at hsome
        exact List.append_inj_left huv.symm hsome
      · exact absurd hu (hnone u v huv)

end TemplateArgs

theorem Suffix.ofChars?_append_iff {suffix : Option Suffix} {behind cs : List Char}
    (hcs : cs = (suffix.map text).getD [] ++ behind) :
    ofChars? cs = suffix ↔ Suffix.Behind suffix behind := by
  subst hcs
  cases suffix with
  | some s =>
    rw [ofChars?_eq_some_iff]
    exact and_iff_left (List.prefix_append _ _)
  | none =>
    rw [Option.eq_none_iff_forall_ne_some]
    simp only [ne_eq, ofChars?_eq_some_iff, not_and]
    rfl

theorem stdNames_foundBy (table : LinkTable) : (stdNames table).FoundBy (StdName.find table) where
  text_ne_nil {before a behind} h := by
    obtain ⟨word, -, -, hname⟩ := h.1.name
    show a.1.name ++ a.1.args ++ a.1.suffixText ≠ []
    rw [hname]
    exact List.cons_ne_nil _ _
  sound {before cs a n} h := by
    simp only [StdName.find, Option.bind_eq_bind, Option.bind_eq_some_iff, Option.pure_def,
      Option.some.injEq, Prod.mk.injEq] at h
    obtain ⟨name, hname, url, hurl, rfl, rfl⟩ := h
    obtain ⟨hapart, word, rest, hne, hword, hstd, rfl, hstop⟩ := StdName.name?_eq_some_iff.1 hname
    rw [List.drop_left]
    generalize hargs : rest.take ((TemplateArgs.length? rest).getD 0) = args
    obtain ⟨rest', rfl⟩ : args <+: rest := hargs ▸ List.take_prefix ..
    rw [List.drop_left]
    generalize hsuffix : Suffix.ofChars? rest' = suffix
    obtain ⟨behind, rfl⟩ : (suffix.map Suffix.text).getD [] <+: rest' := by
      cases suffix with
      | none => exact List.nil_prefix
      | some s => exact Suffix.text_prefix hsuffix
    refine ⟨behind, ?_, rfl, ⟨hapart, ⟨word, hne, hword, hstd⟩, ?_, ?_, ?_⟩,
      LinkTable.url?_eq_some_iff.1 hurl⟩
    · simp [stdNames, StdName.text, StdName.suffixText]
    · rwa [List.append_assoc]
    · exact (TemplateArgs.take_length?_eq_iff rfl).1 hargs
    · exact (Suffix.ofChars?_append_iff rfl).1 hsuffix
  complete {before a behind} h := by
    obtain ⟨⟨hapart, ⟨word, hne, hword, hstd⟩, hwhole, hargs, hsuffix⟩, hpage⟩ := h
    have hurl := LinkTable.url?_eq_some_iff.2 hpage
    have htext : (stdNames table).text a ++ behind =
        a.1.name ++ (a.1.args ++ (a.1.suffixText ++ behind)) := by
      simp [stdNames, StdName.text]
    have hname : StdName.name? before.getLast? ((stdNames table).text a ++ behind) =
        some a.1.name := by
      rw [StdName.name?_eq_some_iff]
      exact ⟨hapart, word, _, hne, hword, hstd, htext, by rwa [List.append_assoc] at hwhole⟩
    have hargs' := (TemplateArgs.take_length?_eq_iff rfl).2 hargs
    have hsuffix' : Suffix.ofChars? (a.1.suffixText ++ behind) = a.1.suffix :=
      (Suffix.ofChars?_append_iff rfl).2 hsuffix
    rw [StdName.find, hname]
    simp only [Option.bind_eq_bind, Option.bind_some, hurl, htext, List.drop_left, hargs', hsuffix']
    rfl

/-! ## Identifiers -/

/-- The member behind an identifier: the word behind two colons, with empty parentheses if
they follow. -/
inductive MemberBefore : (member behind : List Char) → Prop
  | none {behind : List Char} (colons : ∀ rest, behind = ':' :: ':' :: rest → StopsAt isWord rest) :
      MemberBefore [] behind
  | named {word behind : List Char} (ne_nil : word ≠ []) (chars : ∀ c ∈ word, isWord c = true)
      (whole : StopsAt isWord behind) (parens : ¬ ['(', ')'] <+: behind) :
      MemberBefore (':' :: ':' :: word) behind
  | called {word behind : List Char} (ne_nil : word ≠ []) (chars : ∀ c ∈ word, isWord c = true) :
      MemberBefore (':' :: ':' :: (word ++ ['(', ')'])) behind

theorem exists_memberBefore (cs : List Char) :
    ∃ behind, cs = memberBehind cs ++ behind ∧ MemberBefore (memberBehind cs) behind := by
  unfold memberBehind
  split
  · rename_i cs
    obtain ⟨word, rest, rfl, htake, hdrop, hword, hstop⟩ := exists_run isWord cs
    simp only [spanWord, htake, hdrop]
    split
    · refine ⟨_, rfl, .none fun rest' hrest' => ?_⟩
      obtain rfl := (List.cons.inj (List.cons.inj hrest').2).2
      exact hstop
    · rename_i tail hne
      exact ⟨tail, by simp, .called hne hword⟩
    · rename_i hne hparens
      refine ⟨rest, rfl, .named hne hword hstop ?_⟩
      rintro ⟨tail, rfl⟩
      exact hparens tail rfl
  · rename_i hcolons
    exact ⟨cs, rfl, .none fun rest hrest => absurd hrest (hcolons rest)⟩

theorem memberBehind_append {member behind : List Char} (h : MemberBefore member behind) :
    memberBehind (member ++ behind) = member := by
  cases h with
  | none hcolons =>
    rw [List.nil_append]
    unfold memberBehind
    split
    · rename_i rest
      have hnil : ∀ c ∈ ([] : List Char), isWord c = true := nofun
      have htake : rest.takeWhile isWord = [] :=
        (takeWhile_append_of_stopsAt hnil (hcolons rest rfl)).1
      simp only [spanWord, htake]
    · rfl
  | @named word _ hne hword hstop hparens =>
    obtain ⟨htake, hdrop⟩ := takeWhile_append_of_stopsAt hword hstop
    rw [List.cons_append, List.cons_append, memberBehind]
    simp only [spanWord, htake, hdrop]
    split
    · exact absurd rfl hne
    · exact absurd ⟨_, rfl⟩ hparens
    · rfl
  | @called word _ hne hword =>
    have happend : ':' :: ':' :: (word ++ ['(', ')']) ++ behind =
        ':' :: ':' :: (word ++ '(' :: ')' :: behind) := by simp
    have hparen : isWord '(' = false := by decide
    obtain ⟨htake, hdrop⟩ :=
      takeWhile_append_of_stopsAt hword (stopsAt_cons hparen (')' :: behind))
    rw [happend, memberBehind]
    simp only [spanWord, htake, hdrop]
    cases word with
    | nil => exact absurd rfl hne
    | cons c word => rfl

/-- Where an identifier stands. It takes the member that follows. -/
structure IdlName.Occurs (before name member behind : List Char) : Prop where
  apart : ∀ c ∈ before.getLast?, isWord c = false
  ne_nil : name ≠ []
  chars : ∀ c ∈ name, isWord c = true
  whole : StopsAt isWord (member ++ behind)
  member : MemberBefore member behind

theorem IdlName.Occurs.not_mem {before name member behind : List Char}
    (h : Occurs before name member behind) {c : Char}
    (hc : isWord c = false ∧ c ≠ ':' ∧ c ≠ '(' ∧ c ≠ ')') : c ∉ name ++ member := by
  have hchars {word : List Char} (hword : ∀ c ∈ word, isWord c = true) : c ∉ word := by
    intro hmem
    have hmem := hword c hmem
    rw [hc.1] at hmem
    cases hmem
  rw [List.mem_append, not_or]
  refine ⟨hchars h.chars, ?_⟩
  cases h.member with
  | none _ => exact List.not_mem_nil
  | named _ hword _ _ => simpa [hc] using hchars hword
  | called _ hword => simpa [hc] using hchars hword

/-- All identifiers, with the addresses of those that have a page in a table. -/
def identifiers (table : LinkTable) : Pattern IdlName where
  text a := a.text
  occurs before a behind := ∃ name member,
    a = ⟨name ++ member, (table.pages.lookup (String.ofList name)).map (table.base ++ ·)⟩ ∧
      IdlName.Occurs before name member behind

theorem identifiers_foundBy (table : LinkTable) :
    (identifiers table).FoundBy (IdlName.find table) where
  text_ne_nil {before a behind} h := by
    obtain ⟨name, member, rfl, h⟩ := h
    exact List.append_ne_nil_of_left_ne_nil h.ne_nil _
  sound {before cs a n} h := by
    obtain ⟨name, rest, rfl, htake, hdrop, hname, hstop⟩ := exists_run isWord cs
    unfold IdlName.find at h
    split at h
    · cases h
    · rename_i hapart
      simp only [spanWord, htake, hdrop] at h
      split at h
      · cases h
      · rename_i hne heq
        obtain ⟨rfl, rfl⟩ := Prod.mk.inj heq
        obtain ⟨rfl, rfl⟩ := Prod.mk.inj (Option.some.inj h)
        obtain ⟨behind, hrest, hmember⟩ := exists_memberBefore rest
        refine ⟨behind, ?_, rfl, name, _, rfl, ?_, hne, hname, hrest ▸ hstop, hmember⟩
        · show name ++ rest = name ++ memberBehind rest ++ behind
          rw [List.append_assoc, ← hrest]
        · intro c hc
          cases hword : isWord c with
          | false => rfl
          | true => exact absurd ((Option.any_eq_true ..).2 ⟨c, hc, hword⟩) hapart
  complete {before a behind} h := by
    obtain ⟨name, member, rfl, h⟩ := h
    obtain ⟨htake, hdrop⟩ := takeWhile_append_of_stopsAt h.chars h.whole
    have hapart : ¬ (before.getLast?.any isWord) = true := by
      rw [Option.any_eq_true]
      rintro ⟨c, hc, hword⟩
      rw [h.apart c hc] at hword
      cases hword
    show IdlName.find table before.getLast? (name ++ member ++ behind) = _
    rw [IdlName.find, if_neg hapart, List.append_assoc]
    simp only [spanWord, htake, hdrop]
    cases name with
    | nil => exact absurd rfl h.ne_nil
    | cons c name =>
      simp only [memberBehind_append h.member]
      rfl

end DoxPages
