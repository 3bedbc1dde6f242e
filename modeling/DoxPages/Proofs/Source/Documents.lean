import DoxPages.Conversion.Convert

/-!
# The documents of a project

`documents` lists what a project is read from: its index and a document for every compound
in it that is wanted. The pages depend on nothing else, and there are none without an index.
-/

namespace DoxPages

namespace Source

variable {read? read'? : Path → Option String} {path dir : Path}

def indexPath (dir : Path) : Path := dir / Path.ofString "index.xml"

def compoundPath (dir : Path) (e : Entry) : Path := dir / Path.ofString (e.refid ++ ".xml")

/-- The index of a directory and the documents of the compounds of some kinds. -/
def documents (read? : Path → Option String) (dir : Path) (kinds : List String) : List Path :=
  indexPath dir ::
    match loadIndex read? (indexPath dir) with
    | .error _ => []
    | .ok entries => (entries.filter fun e => kinds.contains e.kind).map (compoundPath dir)

theorem loadIndex_congr (h : read? path = read'? path) :
    loadIndex read? path = loadIndex read'? path := by
  unfold loadIndex loadXml
  rw [h]

theorem loadCompound_congr (h : read? path = read'? path) :
    loadCompound read? path = loadCompound read'? path := by
  unfold loadCompound loadXml
  rw [h]

theorem loadEntries_congr {es : List Entry} (model : Model)
    (h : ∀ e ∈ es, read? (compoundPath dir e) = read'? (compoundPath dir e)) :
    loadEntries read? dir model es = loadEntries read'? dir model es := by
  induction es generalizing model with
  | nil => rfl
  | cons e es ih =>
    rw [List.forall_mem_cons] at h
    simp only [loadEntries,
      show dir / Path.ofString (e.refid ++ ".xml") = compoundPath dir e from rfl,
      loadCompound_congr h.1, ih _ h.2]

theorem loadModel_congr {kinds : List String}
    (h : ∀ d ∈ documents read? dir kinds, read? d = read'? d) :
    loadModel read? dir kinds = loadModel read'? dir kinds := by
  have hindex := loadIndex_congr (h (indexPath dir) List.mem_cons_self)
  unfold loadModel
  simp only [show dir / Path.ofString "index.xml" = indexPath dir from rfl, ← hindex]
  cases hload : loadIndex read? (indexPath dir) with
  | error e => rfl
  | ok entries =>
    rw [documents, hload, List.forall_mem_cons, List.forall_mem_map] at h
    simp only [loadEntries_congr [] h.2]

theorem exists_index_of_loadModel {kinds : List String} {model : Model}
    (h : (loadModel read? dir kinds).value = .ok model) :
    ∃ text, read? (indexPath dir) = some text := by
  cases hread : read? (indexPath dir) with
  | some text => exact ⟨text, rfl⟩
  | none =>
    have hindex : loadIndex read? (indexPath dir) = .error ⟨indexPath dir, .unreadableXml⟩ := by
      unfold loadIndex loadXml
      rw [hread]
      rfl
    unfold loadModel at h
    simp only [show dir / Path.ofString "index.xml" = indexPath dir from rfl, hindex] at h
    cases h

end Source

namespace Project

variable {p : Project} {read? read'? : Path → Option String}

/-- What the pages of a project are made from; nothing is read if its settings are no options. -/
def documents (p : Project) (read? : Path → Option String) : List Path :=
  match Options.ofSettings p.settings with
  | .error _ => []
  | .ok o => Source.documents read? p.xmlDir o.compoundKinds

theorem pages_congr (h : ∀ d ∈ p.documents read?, read? d = read'? d) :
    p.pages read? = p.pages read'? := by
  unfold documents at h
  unfold pages
  cases ho : Options.ofSettings p.settings with
  | error e => cases e <;> rfl
  | ok o =>
    rw [ho] at h
    simp only [Source.loadModel_congr h]

theorem exists_index_of_pages {b : Docs.Builder} (h : (p.pages read?).value = .ok b) :
    Source.indexPath p.xmlDir ∈ p.documents read? ∧
      ∃ text, read? (Source.indexPath p.xmlDir) = some text := by
  unfold pages at h
  unfold documents
  cases ho : Options.ofSettings p.settings with
  | error e =>
    rw [ho] at h
    cases e <;> cases h
  | ok o =>
    refine ⟨List.mem_cons_self, ?_⟩
    rw [ho] at h
    simp only [Reported.value_bind] at h
    cases hmodel : (Source.loadModel read? p.xmlDir o.compoundKinds).value with
    | error e =>
      rw [hmodel] at h
      cases h
    | ok model => exact Source.exists_index_of_loadModel hmodel

end Project

end DoxPages
