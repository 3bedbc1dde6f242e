import DoxPages.Proofs.Docs.Assignments
import DoxPages.Proofs.Text.Words

/-!
# String literals in argument lists

An argument list is read character by character as C++ reads it: a double quote opens a string
literal, an apostrophe a character literal unless it separates the digits of a number, and
backslashes escape inside of both. A prototype re-spaces the argument list without this reading,
so a literal is shown as it is exactly if it is evenly spaced itself.
-/

namespace DoxPages

open Text

/-! ## Reading an argument list -/

/-- What the text in front of a character ends in. -/
inductive Lexeme
  | gap
  | name
  | number
  deriving DecidableEq

/-- Where a reader is in an argument list: in code, or behind the first characters of a string
or character literal. -/
inductive Reading
  | code (before : Lexeme)
  | literal (string escaped : Bool) (read : List Char)
  deriving DecidableEq

def quoteOf (string : Bool) : Char := if string then '"' else '\''

namespace Lexeme

/-- A digit opens a number only where no name goes on, and a number has points and apostrophes. -/
def next (before : Lexeme) (c : Char) : Lexeme :=
  if isWord c then
    if before = gap then (if c.isDigit then number else name) else before
  else if before = number ∧ (c = '.' ∨ c = '\'') then number
  else gap

def step (before : Lexeme) (c : Char) : Reading :=
  if c = '"' then .literal true false []
  else if c = '\'' ∧ before ≠ number then .literal false false []
  else .code (before.next c)

end Lexeme

/-- The literals behind one more, which counts if it is a string. -/
def withLiteral (string : Bool) (body : List Char) (lits : List (List Char)) :
    List (List Char) :=
  if string then ('"' :: (body ++ ['"'])) :: lits else lits

/-- The string literals of a text in order, with their quotes, if all literals in it are closed. -/
def literals : Reading → List Char → Option (List (List Char))
  | .code _, [] => some []
  | .literal .., [] => none
  | .code before, c :: cs => literals (before.step c) cs
  | .literal string escaped read, c :: cs =>
    if c = quoteOf string ∧ escaped = false then
      (literals (.code .gap) cs).map (withLiteral string read)
    else literals (.literal string (!escaped && c == '\\') (read ++ [c])) cs

/-! ## Code between literals -/

/-- What a text ends in that opens no literal. -/
def Lexeme.after (before : Lexeme) : List Char → Option Lexeme
  | [] => some before
  | c :: cs =>
    match before.step c with
    | .code next => next.after cs
    | .literal .. => none

theorem isBlank_quoteOf (string : Bool) : isBlank (quoteOf string) = false := by
  cases string <;> decide

theorem quoteOf_ne_sign (string : Bool) : quoteOf string ≠ '=' := by
  cases string <;> decide

theorem step_sign (before : Lexeme) : before.step '=' = .code .gap := by
  cases before <;> decide

theorem step_of_isBlank {c : Char} (h : isBlank c = true) (before : Lexeme) :
    before.step c = .code .gap := by
  have hne {d : Char} (hd : isBlank d = false) : c ≠ d := by
    rintro rfl
    rw [h] at hd
    cases hd
  have hword : ¬ isWord c = true := fun hw => by
    rw [isBlank_of_isWord hw] at h
    cases h
  have hpoint : ¬ (before = .number ∧ (c = '.' ∨ c = '\'')) := fun hp =>
    hp.2.elim (hne (by decide)) (hne (by decide))
  rw [Lexeme.step, if_neg (hne (by decide)), if_neg fun hq => hne (by decide) hq.1, Lexeme.next,
    if_neg hword, if_neg hpoint]

theorem after_cons_code {before next : Lexeme} {c : Char} (h : before.step c = .code next)
    (cs : List Char) : before.after (c :: cs) = next.after cs := by
  rw [Lexeme.after, h]

theorem after_blanks {blanks : List Char} (h : allBlank blanks = true) (cs : List Char) :
    Lexeme.gap.after (blanks ++ cs) = Lexeme.gap.after cs := by
  induction blanks with
  | nil => rfl
  | cons c blanks ih =>
    rw [allBlank_cons] at h
    rw [List.cons_append, after_cons_code (step_of_isBlank h.1 _), ih h.2]

theorem after_lead {lead : List Char} (h : allBlank lead = true) (before : Lexeme)
    (cs : List Char) : before.after (lead ++ '=' :: cs) = Lexeme.gap.after cs := by
  cases lead with
  | nil => exact after_cons_code (step_sign before) cs
  | cons c lead =>
    rw [allBlank_cons] at h
    rw [List.cons_append, after_cons_code (step_of_isBlank h.1 _), after_blanks h.2,
      after_cons_code (step_sign _)]

/-- Spaces around an assignment are no literals, and no name or number goes on behind them. -/
theorem Spacing.after_eq {prev : Option Char} {cs out : List Char} (h : Spacing prev cs out) :
    ∀ before : Lexeme, before.after out = before.after cs := by
  induction h with
  | nil => exact fun _ => rfl
  | @assign _ lead trail rest out hlead htrail _ _ _ ih =>
    intro before
    have hspace : before.after ([' '] ++ '=' :: ([' '] ++ out)) = Lexeme.gap.after out := by
      rw [after_lead rfl, after_blanks rfl]
    rw [after_lead hlead, after_blanks htrail, ← ih]
    exact hspace
  | @keep _ c cs out _ _ ih =>
    intro before
    cases hstep : before.step c with
    | code next => rw [after_cons_code hstep, after_cons_code hstep, ih]
    | literal string escaped read => rw [Lexeme.after, Lexeme.after, hstep]

theorem literals_append_code {seg : List Char} : ∀ {before next : Lexeme},
    before.after seg = some next → ∀ rest : List Char,
      literals (.code before) (seg ++ rest) = literals (.code next) rest := by
  induction seg with
  | nil =>
    intro before next h rest
    rw [Option.some.inj h, List.nil_append]
  | cons c seg ih =>
    intro before next h rest
    cases hstep : before.step c with
    | code between =>
      rw [after_cons_code hstep] at h
      rw [List.cons_append, literals, hstep, ih h]
    | literal string escaped read =>
      rw [Lexeme.after, hstep] at h
      cases h

/-- A text is all code, or code up to the quote that opens the first literal. -/
theorem code_cases (cs : List Char) : ∀ before : Lexeme,
    (∃ next, before.after cs = some next) ∨
    ∃ seg next string rest, cs = seg ++ quoteOf string :: rest ∧
      before.after seg = some next ∧ next.step (quoteOf string) = .literal string false [] := by
  induction cs with
  | nil => exact fun before => .inl ⟨before, rfl⟩
  | cons c cs ih =>
    intro before
    by_cases hopens : ∃ string, c = quoteOf string ∧ before.step c = .literal string false []
    · obtain ⟨string, rfl, hstep⟩ := hopens
      exact .inr ⟨[], before, string, cs, rfl, rfl, hstep⟩
    · have hcode : before.step c = .code (before.next c) := by
        rw [Lexeme.step]
        split
        · rename_i hc
          exact absurd ⟨true, hc, by rw [Lexeme.step, if_pos hc]⟩ hopens
        · rename_i hc
          split
          · rename_i hc'
            exact absurd ⟨false, hc'.1, by rw [Lexeme.step, if_neg hc, if_pos hc']⟩ hopens
          · rfl
      rw [after_cons_code hcode]
      obtain hall | ⟨seg, next, string, rest, rfl, hseg, hstep⟩ := ih (before.next c)
      · exact .inl hall
      · exact .inr ⟨c :: seg, next, string, rest, rfl, by rw [after_cons_code hcode, hseg], hstep⟩

/-! ## The inside of a literal -/

/-- Whether a text can be the rest of a literal in front of its closing quote. -/
def inside (string : Bool) : Bool → List Char → Bool
  | escaped, [] => !escaped
  | escaped, c :: cs =>
    (escaped || c != quoteOf string) && inside string (!escaped && c == '\\') cs

theorem literals_inside {string : Bool} {body : List Char} : ∀ {escaped : Bool}
    {read : List Char}, inside string escaped body = true → ∀ rest : List Char,
      literals (.literal string escaped read) (body ++ quoteOf string :: rest) =
        (literals (.code .gap) rest).map (withLiteral string (read ++ body)) := by
  induction body with
  | nil =>
    intro escaped read h rest
    rw [inside, Bool.not_eq_true'] at h
    rw [List.nil_append, literals, if_pos ⟨rfl, h⟩, List.append_nil]
  | cons c body ih =>
    intro escaped read h rest
    rw [inside, Bool.and_eq_true, Bool.or_eq_true, bne_iff_ne] at h
    have hopen : ¬ (c = quoteOf string ∧ escaped = false) := by
      rintro ⟨hc, rfl⟩
      exact h.1.elim nofun fun hne => hne hc
    rw [List.cons_append, literals, if_neg hopen, ih h.2, List.append_assoc,
      List.singleton_append]

theorem exists_inside {string : Bool} {cs : List Char} : ∀ {escaped : Bool}
    {read : List Char} {lits : List (List Char)},
    literals (.literal string escaped read) cs = some lits →
      ∃ body rest, cs = body ++ quoteOf string :: rest ∧ inside string escaped body = true := by
  induction cs with
  | nil => exact nofun
  | cons c cs ih =>
    intro escaped read lits h
    rw [literals] at h
    split at h
    · rename_i hclose
      exact ⟨[], cs, by rw [hclose.1, List.nil_append], by rw [inside, hclose.2]; rfl⟩
    · rename_i hopen
      obtain ⟨body, rest, rfl, hbody⟩ := ih h
      refine ⟨c :: body, rest, rfl, ?_⟩
      rw [inside, hbody, Bool.and_true, Bool.or_eq_true, bne_iff_ne]
      by_cases he : escaped = true
      · exact .inl he
      · exact .inr fun hc => hopen ⟨hc, Bool.eq_false_iff.2 he⟩

theorem inside_append {string : Bool} {seg : List Char} (hseg : seg ≠ [])
    (h : ∀ c ∈ seg, c ≠ quoteOf string ∧ c ≠ '\\') (escaped : Bool) (cs : List Char) :
    inside string escaped (seg ++ cs) = inside string false cs := by
  induction seg generalizing escaped with
  | nil => exact absurd rfl hseg
  | cons c seg ih =>
    obtain ⟨hquote, hslash⟩ := h c List.mem_cons_self
    have hopen : (escaped || c != quoteOf string) = true := by simp [hquote]
    have hnext : (!escaped && c == '\\') = false := by simp [hslash]
    rw [List.cons_append, inside, hopen, hnext, Bool.true_and]
    cases seg with
    | nil => rfl
    | cons d seg => exact ih nofun (fun e he => h e (List.mem_cons_of_mem c he)) false

theorem Spacing.inside_eq {prev : Option Char} {cs out : List Char} (h : Spacing prev cs out)
    (string : Bool) : ∀ escaped, inside string escaped out = inside string escaped cs := by
  have hsign : '=' ≠ quoteOf string ∧ '=' ≠ '\\' := ⟨(quoteOf_ne_sign string).symm, by decide⟩
  have hblank {c : Char} (hc : isBlank c = true) : c ≠ quoteOf string ∧ c ≠ '\\' := by
    refine ⟨?_, ?_⟩ <;> rintro rfl
    · rw [isBlank_quoteOf] at hc
      cases hc
    · exact absurd hc (by decide)
  induction h with
  | nil => exact fun _ => rfl
  | @assign _ lead trail rest out hlead htrail _ _ _ ih =>
    intro escaped
    have hsides (lead trail cs : List Char) (hlead : allBlank lead = true)
        (htrail : allBlank trail = true) :
        inside string escaped (lead ++ '=' :: (trail ++ cs)) = inside string false cs := by
      rw [← List.cons_append, ← List.append_assoc]
      refine inside_append (by simp) (fun c hc => ?_) escaped cs
      rcases List.mem_append.1 hc with hc | hc
      · exact hblank (List.all_eq_true.1 hlead c hc)
      · rcases List.mem_cons.1 hc with rfl | hc
        · exact hsign
        · exact hblank (List.all_eq_true.1 htrail c hc)
    rw [hsides lead trail rest hlead htrail, ← ih]
    exact hsides [' '] [' '] out rfl rfl
  | @keep _ c cs out _ _ ih =>
    intro escaped
    rw [inside, inside, ih]

/-! ## Literals in prototypes -/

theorem respaced_quote (prev : Option Char) (string : Bool) (cs ds : List Char) :
    respaced prev (cs ++ quoteOf string :: ds) =
      respaced prev cs ++ quoteOf string :: respaced (some (quoteOf string)) ds :=
  respaced_append (isBlank_quoteOf string) (quoteOf_ne_sign string) prev cs ds

theorem map_withLiteral (string : Bool) (body : List Char) (lits : List (List Char)) :
    (withLiteral string body lits).map spaceDefaults =
      withLiteral string (respaced (some (quoteOf string)) body) (lits.map spaceDefaults) := by
  cases string with
  | false => rfl
  | true =>
    have hopen : spaceDefaults ('"' :: (body ++ ['"'])) = _ := respaced_quote none true [] _
    have hclose := respaced_quote (some '"') true body []
    rw [withLiteral, withLiteral, if_pos rfl, if_pos rfl, List.map_cons, hopen]
    rw [respaced_nil] at hclose ⊢
    exact congrArg (fun lit => ('"' :: lit) :: lits.map spaceDefaults) hclose

/-- The literals of a re-spaced text are the literals of the text, each re-spaced by itself. -/
theorem literals_respaced {before : Lexeme} {cs : List Char} {lits : List (List Char)}
    (h : literals (.code before) cs = some lits) (prev : Option Char) :
    literals (.code before) (respaced prev cs) = some (lits.map spaceDefaults) := by
  obtain ⟨next, hcode⟩ | ⟨seg, next, string, rest, rfl, hseg, hstep⟩ := code_cases cs before
  · have hcode' := hcode
    rw [← (spacing_respaced prev cs).after_eq] at hcode'
    rw [← List.append_nil cs, literals_append_code hcode] at h
    rw [← List.append_nil (respaced prev cs), literals_append_code hcode', ← Option.some.inj h]
    rfl
  · have hseg' := hseg
    rw [← (spacing_respaced prev seg).after_eq] at hseg'
    rw [literals_append_code hseg, literals, hstep] at h
    obtain ⟨body, rest, rfl, hbody⟩ := exists_inside h
    rw [literals_inside hbody, Option.map_eq_some_iff] at h
    obtain ⟨behind, hbehind, rfl⟩ := h
    have hbody' := hbody
    rw [← (spacing_respaced (some (quoteOf string)) body).inside_eq] at hbody'
    rw [respaced_quote, respaced_quote, literals_append_code hseg', literals, hstep,
      literals_inside hbody', literals_respaced hbehind, map_withLiteral]
    rfl
termination_by cs.length
decreasing_by
  subst_vars
  simp
  omega

theorem literals_blanks {blanks : List Char} (h : allBlank blanks = true) :
    ∀ reading, literals reading blanks = literals reading [] := by
  induction blanks with
  | nil => exact fun _ => rfl
  | cons c blanks ih =>
    rw [allBlank_cons] at h
    intro reading
    cases reading with
    | code before =>
      show literals (before.step c) blanks = some []
      rw [step_of_isBlank h.1, ih h.2]
      rfl
    | literal string escaped read =>
      have hopen : ¬ (c = quoteOf string ∧ escaped = false) := by
        rintro ⟨rfl, -⟩
        rw [isBlank_quoteOf] at h
        cases h.1
      show literals (.literal string escaped read) (c :: blanks) = none
      rw [literals, if_neg hopen, ih h.2]
      rfl

theorem literals_append_blanks {blanks : List Char} (h : allBlank blanks = true) (cs : List Char) :
    ∀ reading, literals reading (cs ++ blanks) = literals reading cs := by
  induction cs with
  | nil => exact literals_blanks h
  | cons c cs ih =>
    intro reading
    cases reading with
    | code before => exact ih _
    | literal string escaped read =>
      rw [List.cons_append, literals, literals, ih, ih]

theorem literals_strip (cs : List Char) :
    literals (.code .gap) (strip cs) = literals (.code .gap) cs := by
  obtain ⟨trail, htrail, hdrop⟩ := exists_trimRight_append isBlank (cs.dropWhile isBlank)
  obtain ⟨lead, rest, rfl, -, hrest, hlead, -⟩ := exists_run isBlank cs
  rw [hrest] at hdrop
  have hcode : Lexeme.gap.after (lead ++ []) = some .gap :=
    after_blanks (List.all_eq_true.2 hlead) []
  rw [List.append_nil] at hcode
  calc literals (.code .gap) (strip (lead ++ rest))
      = literals (.code .gap) (trimRight isBlank rest ++ trail) := by
        rw [literals_append_blanks htrail, strip, trim, hrest]
        rfl
    _ = literals (.code .gap) (lead ++ rest) := by
        rw [← hdrop, literals_append_code hcode]

namespace Source

def Member.front (m : Member) : String :=
  (headerLine m.params).value ++ m.access ++ ": "
    ++ (if m.static then "static " else "")
    ++ (if m.virt = "virtual" ∨ m.virt = "pure-virtual" then "virtual " else "")
    ++ (if m.explicit then "explicit " else "")
    ++ leadingType (plainType m.type).value ++ m.name

theorem Member.value_prototype (m : Member) : m.prototype.value =
    m.front ++ onChars (fun cs => spaceDefaults (strip cs)) m.args ++ ";" := by
  rw [prototype, Reported.value_bind, Reported.value_bind, Reported.value_pure, front]

/-- A prototype shows the argument list with all its string literals, in order and each re-spaced
by itself, so they are the literals of the argument list exactly if all are evenly spaced. -/
theorem Member.prototype_literals (m : Member) {lits : List (List Char)}
    (h : literals (.code .gap) m.args.toList = some lits) :
    ∃ front shown : String,
      ({ m with args := "" } : Member).prototype.value = front ++ ";" ∧
      m.prototype.value = front ++ shown ++ ";" ∧
      literals (.code .gap) shown.toList = some (lits.map spaceDefaults) ∧
      (literals (.code .gap) shown.toList = some lits ↔
        ∀ lit ∈ lits, spaceDefaults lit = lit) := by
  have hshown : literals (.code .gap)
      (onChars (fun cs => spaceDefaults (strip cs)) m.args).toList =
        some (lits.map spaceDefaults) := by
    rw [toList_onChars]
    exact literals_respaced ((literals_strip m.args.toList).trans h) none
  refine ⟨m.front, _, ?_, m.value_prototype, hshown, ?_⟩
  · have hempty : onChars (fun cs => spaceDefaults (strip cs)) "" = "" := by decide +kernel
    rw [value_prototype, hempty, String.append_empty]
    rfl
  · rw [hshown, Option.some_inj]
    nth_rewrite 2 [← List.map_id lits]
    exact List.map_inj_left

def untyped (name args : String) : Member := { name, args }

theorem Member.prototype_literals_operators :
    literals (.code .gap) "(std::string s=\"a==b\", int n=1'000)".toList =
      some ["\"a==b\"".toList] ∧
    ∃ front shown : String,
      (untyped "find" "").prototype.value = front ++ ";" ∧
      (untyped "find" "(std::string s=\"a==b\", int n=1'000)").prototype.value =
        front ++ shown ++ ";" ∧
      literals (.code .gap) shown.toList = some ["\"a==b\"".toList] := by
  have h : literals (.code .gap) "(std::string s=\"a==b\", int n=1'000)".toList =
      some ["\"a==b\"".toList] := by decide +kernel
  obtain ⟨front, shown, hfront, hshown, -, hiff⟩ :=
    prototype_literals (untyped "find" "(std::string s=\"a==b\", int n=1'000)") h
  exact ⟨h, front, shown, hfront, hshown, hiff.2 (by decide +kernel)⟩

/-- The literal is `"a=b"`, and the prototype shows `"a = b"`. -/
theorem Member.not_prototype_literals_sign :
    ¬ ∀ (m : Member) (lits : List (List Char)),
      literals (.code .gap) m.args.toList = some lits →
        ∀ lit ∈ lits, lit <:+: m.prototype.value.toList := by
  intro hall
  have hlit := hall (untyped "find" "(std::string s=\"a=b\")") ["\"a=b\"".toList]
    (by decide +kernel) _ List.mem_cons_self
  have hshown : (untyped "find" "(std::string s=\"a=b\")").prototype.value =
      "public: find(std::string s = \"a = b\");" := by decide +kernel
  rw [hshown] at hlit
  exact absurd hlit (by decide +kernel)

end Source

end DoxPages
