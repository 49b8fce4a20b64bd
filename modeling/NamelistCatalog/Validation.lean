import NamelistCatalog.Entry
import NamelistCatalog.Text.Blank

namespace NamelistCatalog

/-- Why a list of entries is no catalog. -/
inductive Invalid where
  | emptyName
  | invalidName (name : String)
  | multilineSummary (name : String)
  | duplicateName (name : String)
deriving DecidableEq, Repr

def Invalid.message : Invalid → String
  | .emptyName => "entry name cannot be empty"
  | .invalidName name => "invalid entry name: " ++ name
  | .multilineSummary name => "summary of " ++ name ++ " spans multiple lines"
  | .duplicateName name => "duplicate entry name: " ++ name

namespace Entry

/-- What is wrong with one entry, if anything is. -/
def check (e : Entry) : Option Invalid :=
  if Text.isBlankText e.name.toList then some .emptyName
  else if !Name.isValid e.name then some (.invalidName e.name)
  else if e.summary.toList.contains '\n' then some (.multilineSummary e.name)
  else none

/-- What is wrong with the first entry at which something is, when the folded names in `seen` are
taken. -/
def checkAfter (seen : List String) : List Entry → Option Invalid
  | [] => none
  | e :: rest =>
      match e.check with
      | some problem => some problem
      | none =>
          if seen.contains e.key then some (.duplicateName e.name)
          else checkAfter (e.key :: seen) rest

/-- What is wrong with a list of entries, if anything is. -/
def checkAll (entries : List Entry) : Option Invalid := checkAfter [] entries

theorem check_eq_none_iff {e : Entry} :
    e.check = none ↔ Name.isValid e.name = true ∧ '\n' ∉ e.summary.toList := by
  have hblank : Name.isValid e.name = true → Text.isBlankText e.name.toList = false := by
    intro h
    unfold Name.isValid at h
    cases hn : e.name.toList with
    | nil => simp [hn, Name.isIdentifier] at h
    | cons c rest =>
        simp only [hn, Name.isIdentifier, Bool.and_eq_true] at h
        have hc : Text.isBlank c = false := by
          have hrange := Name.toNat_of_isAlpha h.1
          simp only [Text.isBlank, Bool.or_eq_false_iff, Bool.and_eq_false_iff, beq_eq_false_iff_ne,
            decide_eq_false_iff_not]
          omega
        simp [Text.isBlankText_cons, hc]
  unfold check
  split
  · rename_i h
    simp only [reduceCtorEq, false_iff, not_and]
    intro hv
    simp [hblank hv] at h
  · split
    · simp_all
    · split <;> simp_all

theorem checkAfter_eq_none_iff {seen : List String} {entries : List Entry} :
    checkAfter seen entries = none ↔
      (∀ e ∈ entries, e.check = none) ∧ (∀ e ∈ entries, e.key ∉ seen) ∧
        entries.Pairwise fun a b => a.key ≠ b.key := by
  induction entries generalizing seen with
  | nil => simp [checkAfter]
  | cons e rest ih =>
      simp only [checkAfter]
      cases he : e.check with
      | some problem => simp [he]
      | none =>
          by_cases hs : e.key ∈ seen
          · simp [hs]
          · simp only [List.contains_iff_mem, hs, if_false, ih, List.mem_cons, not_or, he,
              forall_eq_or_imp, true_and, not_false_eq_true, List.pairwise_cons]
            constructor
            · rintro ⟨h1, h2, h3⟩
              exact ⟨h1, fun a ha => (h2 a ha).2, fun a ha => (h2 a ha).1 ∘ Eq.symm, h3⟩
            · rintro ⟨h1, h2, h3, h4⟩
              exact ⟨h1, fun a ha => ⟨fun h => h3 a ha h.symm, h2 a ha⟩, h4⟩

/-- A list of entries is accepted exactly when each entry is and no two fold to the same name. -/
theorem checkAll_eq_none_iff {entries : List Entry} :
    checkAll entries = none ↔
      (∀ e ∈ entries, e.check = none) ∧ entries.Pairwise fun a b => a.key ≠ b.key := by
  simp [checkAll, checkAfter_eq_none_iff]

end Entry

end NamelistCatalog
