import NamelistCatalog.Files.Fault
import NamelistCatalog.Files.Path
import NamelistCatalog.Version

namespace NamelistCatalog

/-- What a document holds. -/
inductive DocumentKind where
  /-- Assignments with documentation comments. -/
  | defaults
  /-- Type declarations. -/
  | declarations
deriving DecidableEq, Repr

def DocumentKind.label : DocumentKind → String
  | .defaults => "defaults"
  | .declarations => "declarations"

/-- Where the text of a document is. -/
inductive DocumentOrigin where
  | file (path : Path)
  | text (label text : String)
deriving DecidableEq, Repr

/-- A document of a source set. -/
structure SourceDocument where
  kind : DocumentKind
  origin : DocumentOrigin
deriving DecidableEq, Repr

namespace SourceDocument

/-- What a document is called in entries and warnings: its path, or the label of its text. -/
def label (d : SourceDocument) : String :=
  match d.origin with
  | .file path => path.text
  | .text label _ => label

def path? (d : SourceDocument) : Option Path :=
  match d.origin with
  | .file path => some path
  | .text _ _ => none

end SourceDocument

/-- The documents that describe one namelist in one release. -/
structure SourceSet where
  namelist : String
  version : SourceVersion
  documents : List SourceDocument := []
deriving DecidableEq, Repr

namespace SourceSet

def display (s : SourceSet) : String := s.namelist ++ "@" ++ s.version.text

def documentsOf (s : SourceSet) (kind : DocumentKind) : List SourceDocument :=
  s.documents.filter fun d => d.kind == kind

end SourceSet

/-- A document after the attempt to read it. -/
structure LoadedDocument where
  kind : DocumentKind
  label : String
  contents : Except IoFault (List Char)

/-- A source set whose documents have been read. -/
structure LoadedSet where
  namelist : String
  version : SourceVersion
  documents : List LoadedDocument

namespace LoadedSet

def documentsOf (s : LoadedSet) (kind : DocumentKind) : List LoadedDocument :=
  s.documents.filter fun d => d.kind == kind

end LoadedSet

end NamelistCatalog
