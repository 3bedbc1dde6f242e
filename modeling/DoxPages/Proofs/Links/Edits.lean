import DoxPages.Proofs.Links.Patterns

/-!
# The edits of the linker

A linked text is its text cut into parts: characters and guards that stay, and edits
in which stretches of the text become links and code spans. `Linker.apply_eq_edits`
says where the edits are and what they write.
-/

namespace DoxPages

open Text

namespace Text.Split

variable {α β : Type}

def collect (f : List Char → List β) (g : α → List β) : Split α → List β
  | last gap => f gap
  | hit gap a rest => f gap ++ g a ++ rest.collect f g

theorem flatMap_collect (h : β → List Char) (f : List Char → List β) (g : α → List β)
    (s : Split α) : (s.collect f g).flatMap h =
      s.write (fun gap => (f gap).flatMap h) fun a => (g a).flatMap h := by
  induction s with
  | last gap => rfl
  | hit gap a rest ih => rw [collect, List.flatMap_append, List.flatMap_append, ih, write]

theorem mem_collect {f : List Char → List β} {g : α → List β} {s : Split α} {b : β}
    (h : b ∈ s.collect f g) : (∃ gap ∈ s.gaps, b ∈ f gap) ∨ ∃ a ∈ s.finds, b ∈ g a := by
  induction s with
  | last gap => exact .inl ⟨gap, List.mem_cons_self, h⟩
  | hit gap a rest ih =>
    rw [collect, List.mem_append, List.mem_append] at h
    rcases h with (h | h) | h
    · exact .inl ⟨gap, List.mem_cons_self, h⟩
    · exact .inr ⟨a, List.mem_cons_self, h⟩
    · rcases ih h with ⟨gap, hgap, hb⟩ | ⟨a, ha, hb⟩
      · exact .inl ⟨gap, List.mem_cons_of_mem _ hgap, hb⟩
      · exact .inr ⟨a, List.mem_cons_of_mem _ ha, hb⟩

theorem write_congr {f f' : List Char → List Char} {g g' : α → List Char} {s : Split α}
    (hf : ∀ gap ∈ s.gaps, f gap = f' gap) (hg : ∀ a ∈ s.finds, g a = g' a) :
    s.write f g = s.write f' g' := by
  induction s with
  | last gap => exact hf gap List.mem_cons_self
  | hit gap a rest ih =>
    rw [write, write, hf gap List.mem_cons_self, hg a List.mem_cons_self,
      ih (fun gap hgap => hf gap (List.mem_cons_of_mem _ hgap))
        fun a ha => hg a (List.mem_cons_of_mem _ ha)]

structure Cuts (p : Pattern α) (s : Split α) (cs : List Char) : Prop where
  text_eq : s.text p = cs
  leftmost : s.Leftmost p []

end Text.Split

theorem Text.Pattern.FoundBy.cuts_iff {α : Type} {p : Pattern α} {find : Finder α}
    (h : p.FoundBy find) (cs : List Char) (s : Split α) : s.Cuts p cs ↔ s = split find none cs := by
  have hiff : split find none cs = s ↔ s.text p = cs ∧ s.Leftmost p [] :=
    h.split_eq_iff []
  rw [eq_comm, hiff]
  exact ⟨fun hs => ⟨hs.text_eq, hs.leftmost⟩, fun ⟨htext, hleftmost⟩ => ⟨htext, hleftmost⟩⟩

theorem Text.Pattern.FoundBy.cuts {α : Type} {p : Pattern α} {find : Finder α}
    (h : p.FoundBy find) (cs : List Char) : (split find none cs).Cuts p cs :=
  (h.cuts_iff cs _).2 rfl

/-! ## Parts of a linked text -/

/-- A link with code as its label, or a code span. -/
inductive Mark where
  | link (label : List Char) (url : String)
  | code (text : List Char)
  deriving DecidableEq, Repr

namespace Mark

def shown : Mark → List Char
  | link label _ => label
  | code text => text

def written : Mark → List Char
  | link label url => (codeLink (String.ofList label) url).toList
  | code text => '`' :: (text ++ ['`'])

end Mark

inductive Part where
  | plain (c : Char)
  | guard (cs : List Char)
  /-- A stretch of the text that is shown as a link, with more marks behind it. -/
  | edit (label : List Char) (url : String) (more : List Mark)
  deriving DecidableEq, Repr

namespace Part

def shown : Part → List Char
  | plain c => [c]
  | guard cs => cs
  | edit label _ more => label ++ more.flatMap Mark.shown

def written : Part → List Char
  | plain c => [c]
  | guard cs => cs
  | edit label url more => (Mark.link label url).written ++ more.flatMap Mark.written

theorem shown_plain (cs : List Char) : (cs.map plain).flatMap shown = cs := by
  induction cs with
  | nil => rfl
  | cons c cs ih => rw [List.map_cons, List.flatMap_cons, ih, shown, List.singleton_append]

theorem written_plain (cs : List Char) : (cs.map plain).flatMap written = cs := by
  induction cs with
  | nil => rfl
  | cons c cs ih => rw [List.map_cons, List.flatMap_cons, ih, written, List.singleton_append]

end Part

/-- The edit of a name: one link without arguments, else a link, the arguments as code and a
link for the suffix. -/
def StdName.edit (table : LinkTable) (s : StdName) (url : String) : Part :=
  if s.args = [] then .edit s.text ((s.suffix.map (Suffix.url table url)).getD url) []
  else .edit s.name url (.code s.args ::
    (s.suffix.map fun suffix => Mark.link suffix.text (suffix.url table url)).toList)

theorem StdName.edit_eq (table : LinkTable) (s : StdName) (url : String) :
    ∃ label url' more, s.edit table url = .edit label url' more := by
  unfold StdName.edit
  split
  · exact ⟨_, _, _, rfl⟩
  · exact ⟨_, _, _, rfl⟩

/-- The subscript operator has a page below that of its type if the table has one for it. -/
theorem Suffix.url_subscript (table : LinkTable) (url : String) :
    subscript.url table url = url ∧ (table.operators.lookup "operator[]").getD "" = "" ∨
      ∃ page, page ≠ "" ∧ table.operators.lookup "operator[]" = some page ∧
        subscript.url table url = url ++ "/" ++ page := by
  unfold Suffix.url
  cases table.operators.lookup "operator[]" with
  | none => exact .inl ⟨rfl, rfl⟩
  | some page =>
    by_cases hpage : page = ""
    · exact .inl ⟨if_pos hpage, hpage⟩
    · exact .inr ⟨page, hpage, rfl, if_neg hpage⟩

theorem StdName.shown_edit (table : LinkTable) (s : StdName) (url : String) :
    (s.edit table url).shown = s.text := by
  unfold StdName.edit
  split
  · simp [Part.shown]
  · cases hs : s.suffix <;> simp [Part.shown, Mark.shown, text, suffixText, hs]

theorem StdName.written_edit (table : LinkTable) (s : StdName) (url : String) :
    (s.edit table url).written = (s.link table url).toList := by
  unfold StdName.edit StdName.link
  split
  · simp [Part.written, Mark.written]
  · cases hs : s.suffix <;> simp [Part.written, Mark.written, suffixText, hs]

/-- An identifier becomes a link if it is in the table, and stays as it is if not. -/
def IdlName.parts (a : IdlName) : List Part :=
  match a.url with
  | some url => [.edit a.text url []]
  | none => a.text.map .plain

theorem IdlName.shown_parts (a : IdlName) : a.parts.flatMap Part.shown = a.text := by
  unfold IdlName.parts
  split
  · simp [Part.shown]
  · exact Part.shown_plain a.text

theorem IdlName.written_parts (a : IdlName) : a.parts.flatMap Part.written = a.link := by
  unfold IdlName.parts IdlName.link
  cases a.url with
  | some url => simp [Part.written, Mark.written]
  | none => exact Part.written_plain a.text

/-! ## The linker -/

namespace Linker

def wordParts (words : Split IdlName) : List Part := words.collect (List.map .plain) IdlName.parts

def pieceParts (l : Linker) (words : List Char → Split IdlName)
    (names : Split (StdName × String)) : List Part :=
  names.collect (fun gap => wordParts (words gap)) fun s => [s.1.edit l.std s.2]

def textParts (l : Linker) (words : List Char → Split IdlName)
    (names : List Char → Split (StdName × String)) (guarded : Split (List Char)) : List Part :=
  guarded.collect (fun piece => l.pieceParts words (names piece)) fun guard => [.guard guard]

def parts (l : Linker) (cs : List Char) : List Part :=
  l.textParts (split (IdlName.find l.idl) none) (split (StdName.find l.std) none)
    (split findProtected none cs)

theorem shown_parts (l : Linker) (cs : List Char) : (l.parts cs).flatMap Part.shown = cs := by
  have hwords (gap : List Char) :
      (wordParts (split (IdlName.find l.idl) none gap)).flatMap Part.shown = gap := by
    rw [wordParts, Split.flatMap_collect]
    simp only [Part.shown_plain, IdlName.shown_parts]
    exact ((identifiers_foundBy l.idl).cuts gap).text_eq
  have hpiece (piece : List Char) : (l.pieceParts (split (IdlName.find l.idl) none)
      (split (StdName.find l.std) none piece)).flatMap Part.shown = piece := by
    rw [pieceParts, Split.flatMap_collect]
    simp only [hwords, List.flatMap_singleton, StdName.shown_edit]
    exact ((stdNames_foundBy l.std).cuts piece).text_eq
  rw [parts, textParts, Split.flatMap_collect]
  simp only [hpiece, List.flatMap_singleton, Part.shown]
  exact (guards_foundBy.cuts cs).text_eq

theorem written_parts (l : Linker) (cs : List Char) :
    (l.parts cs).flatMap Part.written = l.apply cs := by
  have hwords (gap : List Char) :
      (wordParts (split (IdlName.find l.idl) none gap)).flatMap Part.written = l.linkIdl gap := by
    rw [wordParts, Split.flatMap_collect]
    simp only [Part.written_plain, IdlName.written_parts]
    rfl
  have hpiece (piece : List Char) : (l.pieceParts (split (IdlName.find l.idl) none)
      (split (StdName.find l.std) none piece)).flatMap Part.written = l.linkPlain piece := by
    rw [pieceParts, Split.flatMap_collect]
    simp only [hwords, List.flatMap_singleton, StdName.written_edit]
    rfl
  rw [parts, textParts, Split.flatMap_collect]
  simp only [hpiece, List.flatMap_singleton, Part.written]
  rfl

theorem page_of_mem_finds {l : Linker} {piece : List Char} {a : StdName × String}
    (ha : a ∈ (split (StdName.find l.std) none piece).finds) :
    ∃ page, l.std.pages.lookup (String.ofList a.1.name) = some page ∧
      a.2 = l.std.base ++ page := by
  obtain ⟨before, behind, -, hpage⟩ :=
    ((stdNames_foundBy l.std).leftmost_split [] piece).2.exists_occurs ha
  exact hpage

theorem address_of_mem_finds {l : Linker} {gap : List Char} {a : IdlName}
    (ha : a ∈ (split (IdlName.find l.idl) none gap).finds) :
    ∃ name member, a.text = name ++ member ∧ ∀ url, a.url = some url ↔
      ∃ page, l.idl.pages.lookup (String.ofList name) = some page ∧ url = l.idl.base ++ page := by
  obtain ⟨before, behind, name, member, rfl, -⟩ :=
    ((identifiers_foundBy l.idl).leftmost_split [] gap).2.exists_occurs ha
  exact ⟨name, member, rfl, fun _ => LinkTable.url?_eq_some_iff⟩

/-- The linker edits a text at names of the standard library between guards, at identifiers
between these names, and nowhere else. The cuts that say where these are, are the only ones,
and each edit shows the stretch it takes the place of. What is linked has a page in a table,
and its address is that page behind the base of the table. -/
theorem apply_eq_edits (l : Linker) (cs : List Char) :
    ∃ (guarded : Split (List Char)) (names : List Char → Split (StdName × String))
      (words : List Char → Split IdlName),
      (∀ s, s.Cuts guards cs ↔ s = guarded) ∧
      (∀ piece s, s.Cuts (stdNames l.std) piece ↔ s = names piece) ∧
      (∀ gap s, s.Cuts (identifiers l.idl) gap ↔ s = words gap) ∧
      (∀ piece, ∀ a ∈ (names piece).finds, ∃ page,
        l.std.pages.lookup (String.ofList a.1.name) = some page ∧ a.2 = l.std.base ++ page) ∧
      (∀ gap, ∀ a ∈ (words gap).finds, ∃ name member, a.text = name ++ member ∧
        ∀ url, a.url = some url ↔
          ∃ page, l.idl.pages.lookup (String.ofList name) = some page ∧
            url = l.idl.base ++ page) ∧
      (∀ (s : StdName) (url : String), (s.edit l.std url).shown = s.text) ∧
      (∀ a : IdlName, a.parts.flatMap Part.shown = a.text) ∧
      (∀ url member, (Suffix.call member).url l.std url = url ++ "/" ++ String.ofList member) ∧
      (∀ url, Suffix.subscript.url l.std url = url ∧
          (l.std.operators.lookup "operator[]").getD "" = "" ∨
        ∃ page, page ≠ "" ∧ l.std.operators.lookup "operator[]" = some page ∧
          Suffix.subscript.url l.std url = url ++ "/" ++ page) ∧
      (l.textParts words names guarded).flatMap Part.shown = cs ∧
      (l.textParts words names guarded).flatMap Part.written = l.apply cs :=
  ⟨split findProtected none cs, split (StdName.find l.std) none, split (IdlName.find l.idl) none,
    guards_foundBy.cuts_iff cs, (stdNames_foundBy l.std).cuts_iff,
    (identifiers_foundBy l.idl).cuts_iff, fun _ _ => page_of_mem_finds,
    fun _ _ => address_of_mem_finds, StdName.shown_edit l.std, IdlName.shown_parts,
    fun _ _ => rfl, Suffix.url_subscript l.std, l.shown_parts cs, l.written_parts cs⟩

def shapeLinker : Linker where
  std := .cppReference
  idl := { base := "idl/", pages := [("Shape", "shape")] }

/-- A code span, a name with arguments and a member, and an identifier with a member. -/
def shapeText : List Char := "`Shape` std::map<int, Shape>::at() Shape::area()".toList

theorem apply_eq_edits_shapes :
    ∃ (guarded : Split (List Char)) (names : List Char → Split (StdName × String))
      (words : List Char → Split IdlName),
      (∀ s, s.Cuts guards shapeText ↔ s = guarded) ∧
      (∀ piece s, s.Cuts (stdNames shapeLinker.std) piece ↔ s = names piece) ∧
      (∀ gap s, s.Cuts (identifiers shapeLinker.idl) gap ↔ s = words gap) ∧
      shapeLinker.textParts words names guarded =
        [.guard "`Shape`".toList, .plain ' ',
          .edit "std::map".toList "https://en.cppreference.com/w/cpp/container/map"
            [.code "<int, Shape>".toList,
              .link "::at()".toList "https://en.cppreference.com/w/cpp/container/map/at"],
          .plain ' ', .edit "Shape::area()".toList "idl/shape" []] ∧
      shapeLinker.apply shapeText =
        ("`Shape` [`std::map`](https://en.cppreference.com/w/cpp/container/map)`<int, Shape>`" ++
          "[`::at()`](https://en.cppreference.com/w/cpp/container/map/at) " ++
          "[`Shape::area()`](idl/shape)").toList := by
  obtain ⟨guarded, names, words, hguarded, hnames, hwords, -, -, -, -, -, -, -, hwritten⟩ :=
    apply_eq_edits shapeLinker shapeText
  have hsplit : guarded = split findProtected none shapeText :=
    ((hguarded _).1 (guards_foundBy.cuts shapeText)).symm
  have hnames' : names = split (StdName.find shapeLinker.std) none :=
    funext fun piece => ((hnames piece _).1 ((stdNames_foundBy _).cuts piece)).symm
  have hwords' : words = split (IdlName.find shapeLinker.idl) none :=
    funext fun gap => ((hwords gap _).1 ((identifiers_foundBy _).cuts gap)).symm
  have hparts : shapeLinker.textParts words names guarded =
      [.guard "`Shape`".toList, .plain ' ',
        .edit "std::map".toList "https://en.cppreference.com/w/cpp/container/map"
          [.code "<int, Shape>".toList,
            .link "::at()".toList "https://en.cppreference.com/w/cpp/container/map/at"],
        .plain ' ', .edit "Shape::area()".toList "idl/shape" []] := by
    rw [hsplit, hnames', hwords']
    decide +kernel
  refine ⟨guarded, names, words, hguarded, hnames, hwords, hparts, ?_⟩
  rw [← hwritten, hparts]
  decide +kernel

end Linker

end DoxPages
