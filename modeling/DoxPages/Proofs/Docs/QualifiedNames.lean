import DoxPages.Proofs.Docs.Buildable
import DoxPages.Proofs.Links.TemplateArgs
import DoxPages.Proofs.Text.Split
import DoxPages.Proofs.Text.Strip
import DoxPages.Proofs.Text.Words

/-!
# Qualified names

A qualified name is a path of identifiers, each perhaps with template arguments in balanced
brackets. Splitting it gives the identifiers up to the first that has arguments: `reach`.
So namespace and bare name come out right, and bare names alone decide which compounds want
one page, exactly if no identifier but the last has arguments.
-/

namespace DoxPages.Docs

open Text

/-- An identifier, perhaps with template arguments behind it. -/
structure Segment where
  name : String
  args : String := ""
  isName : IsIdentifier name.toList
  isArgs : args = "" ∨ TemplateArgs.Balanced args.toList

structure QualifiedName where
  scopes : List Segment
  own : Segment

namespace Segment

def text (s : Segment) : String := s.name ++ s.args

variable (s : Segment)

theorem not_mem_name {c : Char} (hc : isWord c = false) : c ∉ s.name.toList := by
  intro h
  rw [s.isName.word c h] at hc
  cases hc

theorem name_ne_empty : s.name ≠ "" :=
  fun h => s.isName.ne_nil (congrArg String.toList h)

end Segment

def plainSegment (name : String) (h : IsIdentifier name.toList) : Segment where
  name := name
  isName := h
  isArgs := .inl rfl

namespace QualifiedName

def text (q : QualifiedName) : String := joinWith "::" ((q.scopes ++ [q.own]).map Segment.text)

def scope (q : QualifiedName) : String := joinWith "::" (q.scopes.map Segment.name)

def IsPlain (q : QualifiedName) : Prop := ∀ s ∈ q.scopes, s.args = ""

/-- The segments up to the first with arguments; the last one stands apart. -/
def reach : List Segment → Segment → List Segment × Segment
  | [], own => ([], own)
  | s :: ss, own =>
    if s.args = "" then (s :: (reach ss own).1, (reach ss own).2) else ([], s)

end QualifiedName

/-! ## Splitting at colons -/

open splitQualified (splitColons)

theorem splitColons_of_not_mem {w : List Char} (h : ':' ∉ w) : splitColons w = [w] := by
  induction w with
  | nil => rfl
  | cons c w ih =>
    rw [List.mem_cons, not_or] at h
    cases w with
    | nil => rfl
    | cons d w =>
      rw [splitColons, if_neg fun hc => h.1 hc.1.symm, ih h.2]

theorem splitColons_append {w : List Char} (h : ':' ∉ w) (rest : List Char) :
    splitColons (w ++ ':' :: ':' :: rest) = w :: splitColons rest := by
  induction w with
  | nil => rw [List.nil_append, splitColons, if_pos ⟨rfl, rfl⟩]
  | cons c w ih =>
    rw [List.mem_cons, not_or] at h
    obtain ⟨d, tail, htail⟩ : ∃ d tail, w ++ ':' :: ':' :: rest = d :: tail := by
      cases w with
      | nil => exact ⟨_, _, rfl⟩
      | cons d w => exact ⟨_, _, rfl⟩
    have hrest := ih h.2
    rw [htail] at hrest
    rw [List.cons_append, htail, splitColons, if_neg fun hc => h.1 hc.1.symm, hrest]

theorem splitColons_joinWith {names : List String} (hne : names ≠ [])
    (h : ∀ name ∈ names, ':' ∉ name.toList) :
    splitColons (joinWith "::" names).toList = names.map String.toList := by
  induction names with
  | nil => exact absurd rfl hne
  | cons name names ih =>
    have hname := h name List.mem_cons_self
    cases names with
    | nil =>
      rw [joinWith_singleton, splitColons_of_not_mem hname]
      rfl
    | cons name' names =>
      rw [joinWith_cons_cons, show "::".toList = [':', ':'] from rfl, List.cons_append,
        List.singleton_append, splitColons_append hname,
        ih (List.cons_ne_nil _ _) fun n hn => h n (List.mem_cons_of_mem _ hn)]
      rfl

/-- The text that joins names tells them, if none is empty and none holds a colon. -/
theorem eq_of_joinWith_eq {xs ys : List String} (hxs : ∀ x ∈ xs, x ≠ "" ∧ ':' ∉ x.toList)
    (hys : ∀ y ∈ ys, y ≠ "" ∧ ':' ∉ y.toList) (h : joinWith "::" xs = joinWith "::" ys) :
    xs = ys := by
  have hempty {zs : List String} (hne : zs ≠ []) (hzs : ∀ z ∈ zs, z ≠ "" ∧ ':' ∉ z.toList) :
      joinWith "::" zs ≠ "" := by
    intro hjoin
    have hsplit := splitColons_joinWith hne fun z hz => (hzs z hz).2
    rw [hjoin] at hsplit
    obtain ⟨z, zs, rfl⟩ := List.exists_cons_of_ne_nil hne
    refine (hzs z List.mem_cons_self).1 (String.toList_injective ?_)
    exact (List.cons.inj hsplit).1.symm
  rcases eq_or_ne xs [] with rfl | hx
  · by_contra hy
    exact hempty (Ne.symm hy) hys h.symm
  · rcases eq_or_ne ys [] with rfl | hy
    · exact absurd h (hempty hx hxs)
    · have hsplit := splitColons_joinWith hx fun x hx => (hxs x hx).2
      rw [h, splitColons_joinWith hy fun y hy => (hys y hy).2] at hsplit
      exact List.map_injective_iff.2 (fun _ _ => String.toList_injective) hsplit.symm

/-! ## What is read of a name -/

namespace QualifiedName

def readNames (ss : List Segment) (own : Segment) : List String :=
  (reach ss own).1.map Segment.name ++ [(reach ss own).2.name]

theorem exists_segment_of_mem_readNames {ss : List Segment} {own : Segment} {name : String}
    (h : name ∈ readNames ss own) : ∃ s : Segment, s.name = name := by
  rcases List.mem_append.1 h with h | h
  · obtain ⟨s, -, hs⟩ := List.mem_map.1 h
    exact ⟨s, hs⟩
  · exact ⟨_, (List.mem_singleton.1 h).symm⟩

theorem readNames_cons (s : Segment) (ss : List Segment) (own : Segment) :
    readNames (s :: ss) own = if s.args = "" then s.name :: readNames ss own else [s.name] := by
  rw [readNames, reach]
  split <;> rfl

theorem readNames_ne_nil (ss : List Segment) (own : Segment) : readNames ss own ≠ [] :=
  List.append_ne_nil_of_right_ne_nil _ (List.cons_ne_nil _ _)

theorem before_segment (s : Segment) (rest : List Char) :
    before '<' (s.text.toList ++ rest) =
      if s.args = "" then s.name.toList ++ before '<' rest else s.name.toList := by
  have hname : ∀ c ∈ s.name.toList, decide (c ≠ '<') = true := by
    intro c hc
    rw [decide_eq_true_iff]
    rintro rfl
    exact s.not_mem_name (by decide) hc
  rw [Segment.text, String.toList_append, List.append_assoc, before,
    List.takeWhile_append_of_pos hname]
  split
  · rename_i hargs
    rw [hargs]
    rfl
  · rename_i hargs
    obtain ⟨inner, hinner, -⟩ := s.isArgs.resolve_left hargs
    rw [hinner, List.cons_append, List.takeWhile_cons_of_neg (by decide), List.append_nil]

theorem before_text (ss : List Segment) (own : Segment) :
    before '<' (joinWith "::" ((ss ++ [own]).map Segment.text)).toList =
      (joinWith "::" (readNames ss own)).toList := by
  induction ss with
  | nil =>
    have hown := before_segment own []
    rw [List.append_nil, show before '<' [] = [] from rfl, List.append_nil, ite_self] at hown
    simpa [joinWith, readNames, reach] using hown
  | cons s ss ih =>
    obtain ⟨t, ts, hts⟩ : ∃ t ts, (ss ++ [own]).map Segment.text = t :: ts := by
      cases ss with
      | nil => exact ⟨_, _, rfl⟩
      | cons s' ss => exact ⟨_, _, rfl⟩
    obtain ⟨n, ns, hns⟩ := List.exists_cons_of_ne_nil (readNames_ne_nil ss own)
    rw [List.cons_append, List.map_cons, hts, joinWith_cons_cons, before_segment, ← hts,
      readNames_cons]
    split
    · have hcolons : before '<' ("::".toList ++
          (joinWith "::" ((ss ++ [own]).map Segment.text)).toList) =
          "::".toList ++ (joinWith "::" (readNames ss own)).toList := by
        rw [← ih]
        rfl
      rw [hcolons, hns, joinWith_cons_cons]
    · simp [joinWith]

/-- Splitting a name gives what is read of it, as namespace and bare name. -/
theorem splitQualified_text (q : QualifiedName) : splitQualified q.text =
    (joinWith "::" ((reach q.scopes q.own).1.map Segment.name),
      (reach q.scopes q.own).2.name) := by
  have hnames {name : String} (h : name ∈ readNames q.scopes q.own) (c : Char)
      (hc : c ∈ name.toList) : isWord c = true := by
    obtain ⟨s, rfl⟩ := exists_segment_of_mem_readNames h
    exact s.isName.word c hc
  have hstrip : strip (joinWith "::" (readNames q.scopes q.own)).toList =
      (joinWith "::" (readNames q.scopes q.own)).toList := by
    refine strip_eq_self fun c hc => ?_
    rcases mem_joinWith hc with hc | ⟨name, hname, hc⟩
    · obtain rfl : c = ':' := by simpa using hc
      decide
    · exact isBlank_of_isWord (hnames hname c hc)
  have hcolon : ∀ name ∈ readNames q.scopes q.own, ':' ∉ name.toList := by
    intro name hname hc
    exact absurd (hnames hname ':' hc) (by decide)
  rw [splitQualified, QualifiedName.text, before_text, hstrip,
    splitColons_joinWith (readNames_ne_nil _ _) hcolon, readNames]
  simp [Function.comp_def]

/-! ## Names that are read in full -/

theorem reach_of_plain {ss : List Segment} (h : ∀ s ∈ ss, s.args = "") (own : Segment) :
    reach ss own = (ss, own) := by
  induction ss with
  | nil => rfl
  | cons s ss ih =>
    rw [reach, if_pos (h s List.mem_cons_self), ih fun t ht => h t (List.mem_cons_of_mem _ ht)]

theorem plain_of_length_reach {ss : List Segment} {own : Segment}
    (h : (reach ss own).1.length = ss.length) : ∀ s ∈ ss, s.args = "" := by
  induction ss with
  | nil => exact nofun
  | cons s ss ih =>
    rw [reach] at h
    split at h
    · exact List.forall_mem_cons.2 ⟨‹_›, ih (Nat.succ.inj h)⟩
    · cases h

/-- Only names without arguments in their scopes are read with as many scopes. -/
theorem plain_of_scope_eq (q : QualifiedName)
    (h : joinWith "::" ((reach q.scopes q.own).1.map Segment.name) = q.scope) : q.IsPlain := by
  have hnames (ss : List Segment) : ∀ x ∈ ss.map Segment.name, x ≠ "" ∧ ':' ∉ x.toList := by
    intro x hx
    obtain ⟨s, -, rfl⟩ := List.mem_map.1 hx
    exact ⟨s.name_ne_empty, s.not_mem_name (by decide)⟩
  have hlength := congrArg List.length (eq_of_joinWith_eq (hnames _) (hnames _) h)
  rw [List.length_map, List.length_map] at hlength
  exact plain_of_length_reach hlength

/-- A name is split at the right place exactly if no identifier but the last has template
arguments, and compounds with such names want one page exactly if their last identifiers
agree in lower case. -/
theorem splitQualified_eq_iff (q : QualifiedName) :
    (splitQualified q.text = (q.scope, q.own.name) ↔ q.IsPlain) ∧
    ∀ (o : Options) (c d : Source.Compound) (r : QualifiedName), c.name = q.text →
      d.name = r.text → q.IsPlain → r.IsPlain →
        (pageName o c = pageName o d ↔
          onChars lower q.own.name = onChars lower r.own.name) := by
  have hplain (q : QualifiedName) (h : q.IsPlain) :
      splitQualified q.text = (q.scope, q.own.name) := by
    rw [splitQualified_text, reach_of_plain h]
    rfl
  refine ⟨⟨fun h => ?_, hplain q⟩, fun o c d r hc hd hq hr => ?_⟩
  · rw [splitQualified_text] at h
    exact q.plain_of_scope_eq (Prod.mk.inj h).1
  · rw [pageName_eq_iff, lowerName, lowerName, bareName, bareName, hc, hd, hplain q hq,
      hplain r hr]

def boxOfInt : Segment where
  name := "Box"
  args := "<int>"
  isName := by decide
  isArgs := .inr ⟨"int>".toList, rfl, by
    simp [TemplateArgs.closes_other, TemplateArgs.closes_close]⟩

theorem splitQualified_eq_iff_boxes :
    splitQualified "geo::Box<int>" = ("geo", "Box") ∧
      pageName {} { id := "a", kind := "class", name := "geo::Box<int>" } =
        pageName {} { id := "b", kind := "class", name := "ui::BOX" } := by
  have hgeo : IsPlain ⟨[plainSegment "geo" (by decide)], boxOfInt⟩ :=
    List.forall_mem_singleton.2 rfl
  have hui : IsPlain ⟨[plainSegment "ui" (by decide)], plainSegment "BOX" (by decide)⟩ :=
    List.forall_mem_singleton.2 rfl
  obtain ⟨hsplit, hpages⟩ := splitQualified_eq_iff ⟨[plainSegment "geo" (by decide)], boxOfInt⟩
  exact ⟨hsplit.2 hgeo, (hpages _ _ _ _ rfl rfl hgeo hui).2 (by decide)⟩

/-- Of `Box<int>::Inner` only the class around is read. -/
theorem not_splitQualified_eq_boxInner :
    ¬ ∀ q : QualifiedName, splitQualified q.text = (q.scope, q.own.name) := by
  intro h
  have hclaim := h ⟨[boxOfInt], plainSegment "Inner" (by decide)⟩
  have hread : splitQualified "Box<int>::Inner" = ("", "Box") := by decide +kernel
  have hname := congrArg Prod.snd (hread.symm.trans hclaim)
  revert hname
  decide

end QualifiedName

end DoxPages.Docs
