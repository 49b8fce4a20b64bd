import NamelistCatalog.Name
import NamelistCatalog.Version

namespace NamelistCatalog

/-- The default of a parameter. No default at all differs from an empty literal. -/
inductive DefaultValue where
  | unset
  | literal (text : String)
deriving DecidableEq, Repr, Inhabited

namespace DefaultValue

def literal? : DefaultValue → Option String
  | .unset => none
  | .literal text => some text

/-- The default that an optional literal stands for. -/
def ofLiteral? : Option String → DefaultValue
  | none => .unset
  | some text => .literal text

def display : DefaultValue → String
  | .unset => "<no default>"
  | .literal text => text

@[simp] theorem ofLiteral?_literal? (d : DefaultValue) : ofLiteral? d.literal? = d := by
  cases d <;> rfl

end DefaultValue

/-- The Fortran type of a parameter. -/
inductive ValueType where
  | logical
  | character
  | integer
  | real
  | unknown
deriving DecidableEq, Repr, Inhabited

namespace ValueType

/-- The label under which a type is stored and shown. -/
def label : ValueType → String
  | .logical => "logical"
  | .character => "character"
  | .integer => "integer"
  | .real => "real"
  | .unknown => "unknown"

def ofLabel? (label : String) : Option ValueType :=
  if label == "logical" then some .logical
  else if label == "character" then some .character
  else if label == "integer" then some .integer
  else if label == "real" then some .real
  else if label == "unknown" then some .unknown
  else none

@[simp] theorem ofLabel?_label (t : ValueType) : ofLabel? t.label = some t := by
  cases t <;> decide

end ValueType

/-- One documented namelist parameter. -/
structure Entry where
  /-- The name, in the case in which the source writes it. -/
  name : String
  /-- A summary of one line, possibly empty. -/
  summary : String := ""
  /-- The documentation text, possibly empty. -/
  doc : String := ""
  defaultValue : DefaultValue := .unset
  /-- The release that the entry comes from. -/
  version : SourceVersion
  /-- The namelist that the parameter belongs to. -/
  namelist : String := ""
  valueType : ValueType := .unknown
  /-- The rank of an array, and zero for a scalar. -/
  dim : UInt8 := 0
  /-- The place of the assignment in its defaults document. -/
  order : Option UInt32 := none
  /-- The label of the document that the entry comes from. -/
  origin : String := ""
deriving DecidableEq, Repr

namespace Entry

/-- The folded name, which decides the identity of an entry. -/
def key (e : Entry) : String := Name.fold e.name

/-- Entries are listed by folded name, then by name as written. -/
def nameLe (a b : Entry) : Bool :=
  decide (a.key < b.key) || (a.key == b.key && decide (a.name ≤ b.name))

/-- The entries in the order in which they are listed; entries of one name stay in their order. -/
def sortByName (entries : List Entry) : List Entry := entries.mergeSort nameLe

theorem nameLe_iff {a b : Entry} :
    nameLe a b = true ↔ a.key < b.key ∨ (a.key = b.key ∧ a.name ≤ b.name) := by
  simp [nameLe]

theorem nameLe_trans (a b c : Entry) (hab : nameLe a b = true) (hbc : nameLe b c = true) :
    nameLe a c = true := by
  rw [nameLe_iff] at *
  rcases hab with hab | ⟨hab, hab'⟩
  · rcases hbc with hbc | ⟨hbc, -⟩
    · exact .inl (String.lt_trans hab hbc)
    · exact .inl (hbc ▸ hab)
  · rcases hbc with hbc | ⟨hbc, hbc'⟩
    · exact .inl (hab ▸ hbc)
    · exact .inr ⟨hab.trans hbc, String.le_trans hab' hbc'⟩

theorem nameLe_total (a b : Entry) : (nameLe a b || nameLe b a) = true := by
  rw [Bool.or_eq_true, nameLe_iff, nameLe_iff]
  by_cases hab : a.key < b.key
  · exact .inl (.inl hab)
  by_cases hba : b.key < a.key
  · exact .inr (.inl hba)
  have heq : a.key = b.key := String.le_antisymm hba hab
  rcases String.le_total a.name b.name with h | h
  · exact .inl (.inr ⟨heq, h⟩)
  · exact .inr (.inr ⟨heq.symm, h⟩)

theorem pairwise_sortByName (entries : List Entry) :
    (sortByName entries).Pairwise fun a b => nameLe a b = true :=
  List.pairwise_mergeSort nameLe_trans nameLe_total entries

theorem sortByName_perm (entries : List Entry) : (sortByName entries).Perm entries :=
  List.mergeSort_perm entries nameLe

theorem pairwise_key_lt_sortByName {entries : List Entry}
    (h : (sortByName entries).Pairwise fun a b => a.key ≠ b.key) :
    (sortByName entries).Pairwise fun a b => a.key < b.key := by
  refine ((pairwise_sortByName entries).and h).imp ?_
  rintro a b ⟨hle, hne⟩
  exact (nameLe_iff.mp hle).resolve_right fun heq => hne heq.1

theorem eq_of_perm_of_pairwise_key_lt {entries entries' : List Entry} (h : entries.Perm entries')
    (hlisted : entries.Pairwise fun a b => a.key < b.key)
    (hlisted' : entries'.Pairwise fun a b => a.key < b.key) : entries = entries' :=
  h.eq_of_pairwise (fun _ _ _ _ hab hba => absurd hba (String.lt_asymm hab)) hlisted hlisted'

end Entry

end NamelistCatalog
