import Mathlib.Data.List.Nodup
import NamelistCatalog.Defaults

namespace NamelistCatalog

namespace Assignment

def key (a : Assignment) : String := Name.fold (String.ofList a.name)

/-- The default that the assignment gives: its literal, and nothing if that is empty. -/
def defaultValue (a : Assignment) : DefaultValue :=
  if a.literal.isEmpty then .unset else .literal (String.ofList a.literal)

def inferred (a : Assignment) : Inferred :=
  if a.literal.isEmpty then ⟨.unknown, false⟩ else Literal.infer a.literal

/-- The rank of the index list, if there is one. -/
def rank? (a : Assignment) : Option UInt8 := a.index.map rankOf

/-- An assignment and the line on which its statement starts. -/
structure Located extends Assignment where
  line : Nat
deriving DecidableEq, Repr

namespace Located

/-- The assignment that a statement is, if it is one. -/
def ofCodeLine? (s : CodeLine) : Option Located :=
  (ofStatement? s.text).map fun a => { a with line := s.number }

def first? (key : String) (as : List Located) : Option Located := as.find? fun a => a.key == key

/-- The assignments that are the first of their name. -/
def firsts (as : List Located) : List Located := as.filter fun a => first? a.key as == some a

/-- The ranks that the index lists of a name show. -/
def ranks (key : String) (as : List Located) : List UInt8 :=
  (as.filter fun a => a.key == key).filterMap fun a => a.rank?

/-- An assignment to an element of an array that an earlier assignment has introduced. -/
def isElement (as : List Located) (a : Located) : Bool :=
  a.index.isSome && (first? a.key as).any fun first => first.index.isSome && first != a

variable {as : List Located} {a b : Located} {key : String}

theorem first?_concat (key : String) (as : List Located) (a : Located) :
    first? key (as ++ [a]) = (first? key as).or (if a.key = key then some a else none) := by
  rw [first?, List.find?_append, ← first?, List.find?_singleton]
  simp

theorem key_of_first? (h : first? key as = some a) : a.key = key := by
  have hkey := List.find?_some h
  exact beq_iff_eq.mp hkey

theorem mem_of_first? (h : first? key as = some a) : a ∈ as := List.mem_of_find?_eq_some h

theorem exists_first? (h : a ∈ as) : ∃ first, first? a.key as = some first := by
  rw [← Option.isSome_iff_exists, first?, List.find?_isSome]
  exact ⟨a, h, beq_self_eq_true _⟩

theorem mem_firsts_iff : a ∈ firsts as ↔ first? a.key as = some a := by
  rw [firsts, List.mem_filter, beq_iff_eq]
  exact ⟨fun h => h.2, fun h => ⟨mem_of_first? h, h⟩⟩

theorem mem_of_mem_firsts (h : a ∈ firsts as) : a ∈ as := List.mem_of_mem_filter h

theorem first?_concat_of_mem (h : b ∈ as) (a : Located) :
    first? b.key (as ++ [a]) = first? b.key as := by
  obtain ⟨first, hfirst⟩ := exists_first? h
  rw [first?_concat, hfirst, Option.some_or]

theorem firsts_concat (ha : a ∉ as) :
    firsts (as ++ [a]) = firsts as ++ if (first? a.key as).isSome then [] else [a] := by
  have hold : as.filter (fun b => first? b.key (as ++ [a]) == some b) = firsts as := by
    refine List.filter_congr ?_
    intro b hb
    rw [first?_concat_of_mem hb]
  rw [firsts, List.filter_append, hold, List.filter_cons, List.filter_nil, first?_concat, if_pos rfl]
  congr 1
  cases hfirst : first? a.key as with
  | none => simp
  | some first =>
      have hne : first ≠ a := by
        rintro rfl
        exact ha (mem_of_first? hfirst)
      simp [hne]

theorem nodup_key_firsts (h : as.Nodup) : ((firsts as).map fun a => a.key).Nodup := by
  refine List.Nodup.map_on ?_ (h.filter _)
  intro a ha b hb hkey
  have hfirst := mem_firsts_iff.mp ha
  rw [hkey, mem_firsts_iff.mp hb] at hfirst
  exact (Option.some.inj hfirst).symm

theorem mem_key_firsts_iff : key ∈ (firsts as).map (fun a => a.key) ↔ (first? key as).isSome = true := by
  rw [List.mem_map, Option.isSome_iff_exists]
  constructor
  · rintro ⟨a, ha, rfl⟩
    exact ⟨a, mem_firsts_iff.mp ha⟩
  · rintro ⟨a, ha⟩
    have hkey := key_of_first? ha
    refine ⟨a, mem_firsts_iff.mpr ?_, hkey⟩
    rw [hkey, ha]

theorem mem_ranks_iff {rank : UInt8} :
    rank ∈ ranks key as ↔ ∃ a ∈ as, a.key = key ∧ a.rank? = some rank := by
  simp [ranks, and_assoc]

theorem exists_rankOf_mem_ranks (ha : a ∈ as) (hindex : a.index.isSome = true) :
    ∃ index, rankOf index ∈ ranks a.key as := by
  obtain ⟨index, hsome⟩ := Option.isSome_iff_exists.mp hindex
  exact ⟨index, mem_ranks_iff.mpr ⟨a, ha, rfl, by rw [rank?, hsome, Option.map_some]⟩⟩

theorem ranks_concat (key : String) (as : List Located) (a : Located) :
    ranks key (as ++ [a]) = ranks key as ++ if a.key = key then a.rank?.toList else [] := by
  rw [ranks, List.filter_append, List.filterMap_append, ← ranks, List.filter_cons, List.filter_nil]
  by_cases hkey : a.key = key
  · cases hrank : a.rank? <;> simp [hkey, hrank]
  · simp [hkey]

theorem ranks_concat_of_rank_eq_none (key : String) (h : a.key = key → a.rank? = none) :
    ranks key (as ++ [a]) = ranks key as := by
  rw [ranks_concat]
  split
  · rename_i hkey
    rw [h hkey]
    exact List.append_nil _
  · exact List.append_nil _

/-- How many assignments are to further elements of an array. -/
def elements (as : List Located) : Nat := as.countP (isElement as)

theorem elements_concat (ha : a ∉ as) :
    elements (as ++ [a]) = elements as +
      if a.index.isSome && (first? a.key as).any fun first => first.index.isSome then 1 else 0 := by
  have hold : as.countP (isElement (as ++ [a])) = elements as := by
    refine List.countP_congr ?_
    intro b hb
    rw [isElement, first?_concat_of_mem hb, isElement]
  rw [elements, List.countP_append, hold, List.countP_singleton]
  congr 2
  rw [isElement, first?_concat, if_pos rfl]
  cases hfirst : first? a.key as with
  | none => simp
  | some first =>
      have hne : first ≠ a := by
        rintro rfl
        exact ha (mem_of_first? hfirst)
      simp [hne]

end Located

end Assignment

end NamelistCatalog
