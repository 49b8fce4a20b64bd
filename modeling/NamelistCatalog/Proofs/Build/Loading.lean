import NamelistCatalog.Build
import NamelistCatalog.Files.Tree

namespace NamelistCatalog

/-- The document with the text that it has in a tree. -/
def SourceDocument.loadFrom (tree : FileTree) (d : SourceDocument) : LoadedDocument :=
  match d.origin with
  | .text label text => ⟨d.kind, label, .ok text.toList⟩
  | .file path => ⟨d.kind, path.text, (tree.read path).map Text.Utf8.decodeLossy⟩

/-- The set with the texts that its documents have in a tree. -/
def SourceSet.loadFrom (tree : FileTree) (s : SourceSet) : LoadedSet :=
  { namelist := s.namelist
    version := s.version
    documents := s.documents.map (SourceDocument.loadFrom tree) }

theorem SourceSet.version_loadFrom (tree : FileTree) (s : SourceSet) :
    (s.loadFrom tree).version = s.version := rfl

theorem SourceDocument.kind_loadFrom (tree : FileTree) (d : SourceDocument) :
    (d.loadFrom tree).kind = d.kind := by
  unfold loadFrom
  split <;> rfl

theorem SourceSet.length_documentsOf_loadFrom (tree : FileTree) (s : SourceSet)
    (kind : DocumentKind) :
    ((s.loadFrom tree).documentsOf kind).length = (s.documentsOf kind).length := by
  rw [LoadedSet.documentsOf, documentsOf, loadFrom, List.filter_map, List.length_map]
  simp only [Function.comp_def, SourceDocument.kind_loadFrom]

namespace Build

/-- What building a plan over a tree of files gives. -/
def inTree (tree : FileTree) (plan : BuildPlan) (generatedAt : String) :
    Except BuildError (Catalog × BuildReport) :=
  ((inMemory plan generatedAt : ExceptT BuildError (StateM FileTree) _).run.run tree).1

theorem run_mapM {α β : Type} {f : α → StateM FileTree β} {g : α → β} {tree : FileTree}
    (h : ∀ a, (f a).run tree = (g a, tree)) (as : List α) :
    (as.mapM f).run tree = (as.map g, tree) := by
  induction as with
  | nil => rfl
  | cons a rest ih =>
      rw [List.mapM_cons, StateT.run_bind, h a]
      change ((rest.mapM f).run tree >>= fun p => pure (g a :: p.1, p.2)) = _
      rw [ih]
      rfl

theorem run_loadDocument (tree : FileTree) (d : SourceDocument) :
    (loadDocument d : StateM FileTree LoadedDocument).run tree = (d.loadFrom tree, tree) := by
  unfold loadDocument SourceDocument.loadFrom
  cases d.origin with
  | text label text => rfl
  | file path => rfl

theorem run_loadSet (tree : FileTree) (s : SourceSet) :
    (loadSet s : StateM FileTree LoadedSet).run tree = (s.loadFrom tree, tree) := by
  unfold loadSet
  rw [StateT.run_bind, run_mapM (run_loadDocument tree)]
  rfl

theorem inTree_eq (tree : FileTree) (plan : BuildPlan) (generatedAt : String) :
    inTree tree plan generatedAt =
      ofLoaded plan.policy generatedAt (plan.sets.map (SourceSet.loadFrom tree)) := by
  have hload := run_mapM (run_loadSet tree) plan.sets
  unfold inTree inMemory
  simp only [ExceptT.run_bind, ExceptT.run_mk, StateT.run_bind, ExceptT.run_liftM, StateT.run_map,
    hload]
  rfl

end Build

end NamelistCatalog
