import DoxPages.Proofs.Links.TemplateArgs
import Mathlib.Data.Nat.Find
import Mathlib.Order.Bounds.Basic

/-!
# Level spans

A span of a text is level if it closes as many brackets as it opens. The argument list at a
bracket is the shortest span from there that is level: the depth moves by one bracket at a time,
so up to its end more brackets are open than closed.
-/

namespace DoxPages.TemplateArgs

variable {cs text : List Char} {start n e : Nat}

/-! ## The shortest level front -/

/-- The first `n` characters hold something, and close as many brackets as they open. -/
structure LevelAt (cs : List Char) (n : Nat) : Prop where
  pos : 0 < n
  even : (cs.take n).count '>' = (cs.take n).count '<'

/-- One more character closes at most one bracket, so a text that opens one stays open as long
as no front of it is level. -/
theorem count_lt_of_not_levelAt (hhead : cs.head? = some '<') (hpos : 0 < n)
    (h : ∀ m ≤ n, ¬ LevelAt cs m) : (cs.take n).count '>' < (cs.take n).count '<' := by
  induction n, hpos using Nat.le_induction with
  | base =>
    obtain ⟨rest, rfl⟩ := List.head?_eq_some_iff.1 hhead
    simp
  | succ n hpos ih =>
    have hopen := ih fun m hm => h m (Nat.le_succ_of_le hm)
    have hne : (cs.take (n + 1)).count '>' ≠ (cs.take (n + 1)).count '<' := fun heven =>
      h (n + 1) (Nat.le_refl _) ⟨Nat.succ_pos n, heven⟩
    rw [List.take_add_one, List.count_append, List.count_append] at hne ⊢
    have hone : cs[n]?.toList.count '>' ≤ 1 := by
      cases cs[n]? with
      | none => exact Nat.zero_le 1
      | some c => exact List.count_le_length
    omega

theorem le_length_of_isLeast (hne : cs ≠ []) (h : IsLeast {m | LevelAt cs m} n) :
    n ≤ cs.length := by
  by_contra hlong
  have heven := h.1.even
  rw [List.take_of_length_le (Nat.le_of_not_le hlong)] at heven
  refine hlong (h.2 ⟨List.length_pos_iff.2 hne, ?_⟩)
  rwa [List.take_length]

/-- The argument list of a text is its shortest front that is level. -/
theorem length?_eq_some_iff_isLeast :
    length? cs = some n ↔ cs.head? = some '<' ∧ IsLeast {m | LevelAt cs m} n := by
  rw [length?_eq_some_iff]
  constructor
  · rintro ⟨_, behind, rfl, rfl, inner, rfl, hinner⟩
    refine ⟨rfl, ⟨Nat.succ_pos _, ?_⟩, fun m hm => ?_⟩
    · have heven := hinner.even
      rw [List.take_left, List.count_cons_self, List.count_cons_of_ne (by decide)]
      omega
    · by_contra hshort
      obtain ⟨k, rfl⟩ := Nat.exists_eq_succ_of_ne_zero (Nat.ne_of_gt hm.pos)
      have hk : k < inner.length := Nat.lt_of_succ_lt_succ (Nat.lt_of_not_le hshort)
      have hopen := hinner.open_before (inner.take k) (inner.drop k)
        (List.take_append_drop k inner).symm (by simpa using hk)
      have heven := hm.even
      rw [List.cons_append, List.take_succ_cons, List.take_append_of_le_length hk.le,
        List.count_cons_self, List.count_cons_of_ne (by decide)] at heven
      omega
  · rintro ⟨hhead, hleast⟩
    obtain ⟨rest, rfl⟩ := List.head?_eq_some_iff.1 hhead
    have hlength := le_length_of_isLeast (List.cons_ne_nil _ _) hleast
    obtain ⟨⟨hpos, heven⟩, hleast⟩ := hleast
    obtain ⟨k, rfl⟩ := Nat.exists_eq_succ_of_ne_zero (Nat.ne_of_gt hpos)
    refine ⟨'<' :: rest.take k, rest.drop k, ?_, ?_, rest.take k, rfl, ?_, fun u v huv hv => ?_⟩
    · rw [List.cons_append, List.take_append_drop]
    · rw [List.length_cons, List.length_take,
        Nat.min_eq_left (Nat.le_of_succ_le_succ hlength)]
    · rw [List.take_succ_cons, List.count_cons_self, List.count_cons_of_ne (by decide)] at heven
      omega
    · -- a front that ends before the shortest one is open
      have hu : u.length < k := by
        have hcount := congrArg List.length huv
        have hv := List.length_pos_iff.2 hv
        rw [List.length_take, List.length_append] at hcount
        omega
      have hfront : rest.take u.length = u := by
        have htake := congrArg (List.take u.length) huv
        rwa [List.take_take, Nat.min_eq_left hu.le, List.take_left] at htake
      have hopen := count_lt_of_not_levelAt hhead (Nat.succ_pos u.length) fun m hm hlevel =>
        absurd (hleast hlevel) (by omega)
      rw [List.take_succ_cons, hfront, List.count_cons_self,
        List.count_cons_of_ne (by decide)] at hopen
      omega

/-! ## Spans of a text -/

def span (text : List Char) (start stop : Nat) : List Char := (text.drop start).take (stop - start)

/-- The span holds something, and closes as many brackets as it opens. -/
structure LevelSpan (text : List Char) (start stop : Nat) : Prop where
  lt : start < stop
  even : (span text start stop).count '>' = (span text start stop).count '<'

theorem levelSpan_iff : LevelSpan text start (start + n) ↔ LevelAt (text.drop start) n := by
  have hspan : span text start (start + n) = (text.drop start).take n := by
    rw [span, Nat.add_sub_cancel_left]
  constructor
  · rintro ⟨hlt, heven⟩
    exact ⟨by omega, hspan ▸ heven⟩
  · rintro ⟨hpos, heven⟩
    exact ⟨by omega, hspan ▸ heven⟩

/-- The scan ends behind the shortest span that is level, if the text opens a bracket at its
start. -/
theorem end?_eq_some_iff : end? text start = some e ↔
    text[start]? = some '<' ∧ IsLeast {stop | LevelSpan text start stop} e := by
  have hhead : (text.drop start).head? = text[start]? := List.head?_drop
  unfold end?
  simp only [Option.map_eq_some_iff, length?_eq_some_iff_isLeast, hhead]
  constructor
  · rintro ⟨n, ⟨hopen, hlevel, hleast⟩, rfl⟩
    refine ⟨hopen, levelSpan_iff.2 hlevel, fun stop hstop => ?_⟩
    obtain ⟨m, rfl⟩ := Nat.exists_eq_add_of_le hstop.lt.le
    exact Nat.add_le_add_left (hleast (levelSpan_iff.1 hstop)) start
  · rintro ⟨hopen, hlevel, hleast⟩
    obtain ⟨n, rfl⟩ := Nat.exists_eq_add_of_le hlevel.lt.le
    refine ⟨n, ⟨hopen, levelSpan_iff.1 hlevel, fun m hm => ?_⟩, rfl⟩
    exact Nat.le_of_add_le_add_left (hleast (levelSpan_iff.2 hm))

theorem open_before_end {f : Nat} (hopen : text[start]? = some '<')
    (he : IsLeast {stop | LevelSpan text start stop} e) (hf : start < f) (hfe : f < e) :
    (span text start f).count '>' < (span text start f).count '<' := by
  obtain ⟨n, rfl⟩ := Nat.exists_eq_add_of_le hf.le
  rw [span, Nat.add_sub_cancel_left]
  refine count_lt_of_not_levelAt (List.head?_drop.trans hopen) (by omega) fun m hm hlevel => ?_
  have hle := he.2 (levelSpan_iff.2 hlevel)
  omega

theorem close_at_end (hopen : text[start]? = some '<')
    (he : IsLeast {stop | LevelSpan text start stop} e) : text[e - 1]? = some '>' := by
  obtain ⟨k, rfl⟩ := Nat.exists_eq_add_of_le (Nat.succ_le_of_lt he.1.lt)
  have heven := he.1.even
  rw [span, show start.succ + k - start = k + 1 by omega, List.take_add_one, List.count_append,
    List.count_append, List.getElem?_drop] at heven
  rw [show start.succ + k - 1 = start + k by omega]
  cases k with
  | zero =>
    rw [Nat.add_zero, hopen] at heven
    simp at heven
  | succ k =>
    have hlt := open_before_end hopen he (f := start + (k + 1)) (by omega) (by omega)
    rw [span, Nat.add_sub_cancel_left] at hlt
    -- the last character closes a bracket more than it opens
    have hlast : '>' ∈ text[start + (k + 1)]?.toList := List.count_pos_iff.1 (by omega)
    exact Option.mem_toList.1 hlast

/-- The scan for the end of an argument list finds the shortest span that opens a bracket at the
start and is level, and nothing if there is none. The span is open until its last character, which
closes the bracket. -/
theorem end?_shortest_span (text : List Char) (start : Nat) :
    (∀ e, end? text start = some e ↔
      text[start]? = some '<' ∧ IsLeast {stop | LevelSpan text start stop} e) ∧
    (end? text start = none ↔
      ¬ (text[start]? = some '<' ∧ ∃ stop, LevelSpan text start stop)) ∧
    ∀ e, end? text start = some e → e ≤ text.length ∧ text[e - 1]? = some '>' ∧
      ∀ f, start < f → f < e → (span text start f).count '>' < (span text start f).count '<' := by
  refine ⟨fun e => end?_eq_some_iff, ?_, fun e he => ?_⟩
  · rw [Option.eq_none_iff_forall_ne_some]
    constructor
    · rintro hnone ⟨hopen, hlevel⟩
      classical
      have hleast : IsLeast {stop | LevelSpan text start stop} (Nat.find hlevel) :=
        ⟨Nat.find_spec hlevel, fun _ => Nat.find_min' hlevel⟩
      exact hnone _ (end?_eq_some_iff.2 ⟨hopen, hleast⟩)
    · rintro hno e he
      obtain ⟨hopen, hleast⟩ := end?_eq_some_iff.1 he
      exact hno ⟨hopen, e, hleast.1⟩
  · obtain ⟨hopen, hleast⟩ := end?_eq_some_iff.1 he
    have hclose := close_at_end hopen hleast
    have hlength := (List.getElem?_eq_some_iff.1 hclose).1
    exact ⟨by omega, hclose, fun f hf hfe => open_before_end hopen hleast hf hfe⟩

/-- An argument list in another one, behind a first argument. -/
theorem end?_shortest_span_nested : end? "map<K,vector<V>>>".toList 3 = some 16 ∧
    ∀ f, 3 < f → f < 16 → (span "map<K,vector<V>>>".toList 3 f).count '>' <
      (span "map<K,vector<V>>>".toList 3 f).count '<' := by
  have hend : end? "map<K,vector<V>>>".toList 3 = some 16 := by decide
  exact ⟨hend, ((end?_shortest_span _ _).2.2 16 hend).2.2⟩

end DoxPages.TemplateArgs
