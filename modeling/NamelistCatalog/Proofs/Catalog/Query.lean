import NamelistCatalog.Catalog.Query
import NamelistCatalog.Proofs.Catalog

namespace NamelistCatalog.Catalog

variable {entries : Array Entry} {key : String} {lo hi : Nat}

theorem key_lt_of_lt (hsorted : entries.toList.Pairwise fun a b => a.key < b.key) {i j : Nat}
    (hi : i < entries.size) (hj : j < entries.size) (hij : i < j) :
    entries[i].key < entries[j].key := by
  simpa using List.pairwise_iff_getElem.mp hsorted i j hi hj hij

/-- Halving parts the places whose keys are below the key from all others. -/
theorem lt_lowerBound_iff (hsorted : entries.toList.Pairwise fun a b => a.key < b.key)
    (h : hi ≤ entries.size)
    (hbelow : ∀ i (hi : i < entries.size), i < lo → entries[i].key < key)
    (habove : ∀ i (hsize : i < entries.size), hi ≤ i → ¬entries[i].key < key) {i : Nat}
    (hsize : i < entries.size) : i < lowerBound entries key lo hi h ↔ entries[i].key < key := by
  fun_induction lowerBound entries key lo hi h with
  | case1 lo hi h hlt hless ih =>
      refine ih ?_ habove
      intro j hj hjmid
      rcases Nat.lt_or_eq_of_le (Nat.le_of_lt_succ hjmid) with hjmid | rfl
      · exact String.lt_trans (key_lt_of_lt hsorted hj _ hjmid) hless
      · exact hless
  | case2 lo hi h hlt hless ih =>
      refine ih hbelow ?_
      intro j hj hmidj
      rcases Nat.lt_or_eq_of_le hmidj with hmidj | rfl
      · exact fun hjless => hless (String.lt_trans (key_lt_of_lt hsorted _ hj hmidj) hjless)
      · exact hless
  | case3 lo hi h hlt =>
      constructor
      · exact hbelow i hsize
      · intro hless
        rcases Nat.lt_or_ge i lo with hlo | hlo
        · exact hlo
        · exact absurd hless (habove i hsize (by omega))

variable {c : Catalog} {name : String} {e : Entry}

theorem lt_place_iff {i : Nat} (hi : i < c.entries.size) :
    i < c.place key ↔ c.entries[i].key < key :=
  lt_lowerBound_iff c.listed.2 (Nat.le_refl _) (by simp) (by omega) hi

theorem getElem?_place_key (hmem : e ∈ c.entries.toList) : c.entries[c.place e.key]? = some e := by
  obtain ⟨i, hi, rfl⟩ := List.getElem_of_mem hmem
  rw [Array.length_toList] at hi
  have hle : c.place c.entries[i].key ≤ i := by
    rw [← Nat.not_lt, lt_place_iff hi]
    exact String.lt_irrefl _
  have hge : i ≤ c.place c.entries[i].key := by
    rw [← Nat.not_lt]
    intro hlt
    have hless := key_lt_of_lt c.listed.2 (Nat.lt_trans hlt hi) hi hlt
    exact absurd ((lt_place_iff (Nat.lt_trans hlt hi)).mpr hless) (Nat.lt_irrefl _)
  rw [Array.getElem_toList, Nat.le_antisymm hle hge]
  exact Array.getElem?_eq_getElem hi

theorem find?_eq_some_iff :
    c.find? name = some e ↔ e ∈ c.entries.toList ∧ e.key = Name.fold name := by
  rw [find?, Option.filter_eq_some_iff, beq_iff_eq]
  constructor
  · rintro ⟨hplace, hkey⟩
    exact ⟨Array.mem_toList_iff.mpr (Array.mem_of_getElem? hplace), hkey⟩
  · rintro ⟨hmem, hkey⟩
    rw [← hkey]
    exact ⟨getElem?_place_key hmem, rfl⟩

theorem find?_eq_none_iff :
    c.find? name = none ↔ ∀ e ∈ c.entries.toList, e.key ≠ Name.fold name := by
  rw [Option.eq_none_iff_forall_ne_some]
  constructor
  · intro h e hmem hkey
    exact h e (find?_eq_some_iff.mpr ⟨hmem, hkey⟩)
  · intro h e hfound
    obtain ⟨hmem, hkey⟩ := find?_eq_some_iff.mp hfound
    exact h e hmem hkey

/-- All lookups of the name answer from the entry. -/
structure Answers (c : Catalog) (name : String) (e : Entry) : Prop where
  find : c.find? name = some e
  entry : c.entry name = .ok e
  doc : c.doc name = .ok e.doc
  defaultText : c.defaultText name = .ok e.defaultValue.display
  summary : c.summary name = .ok e.summary

/-- All lookups of the name report it as it was asked. -/
structure Lacks (c : Catalog) (name : String) : Prop where
  find : c.find? name = none
  entry : c.entry name = .error (.notFound name)
  doc : c.doc name = .error (.notFound name)
  defaultText : c.defaultText name = .error (.notFound name)
  summary : c.summary name = .error (.notFound name)

theorem answers_of_find? (h : c.find? name = some e) : c.Answers name e := by
  have hentry : c.entry name = .ok e := by rw [entry, h]
  refine ⟨h, hentry, ?_, ?_, ?_⟩
  · rw [doc, hentry]
    rfl
  · rw [defaultText, hentry]
    rfl
  · rw [summary, hentry]
    rfl

theorem lacks_of_find? (h : c.find? name = none) : c.Lacks name := by
  have hentry : c.entry name = .error (.notFound name) := by rw [entry, h]
  refine ⟨h, hentry, ?_, ?_, ?_⟩
  · rw [doc, hentry]
    rfl
  · rw [defaultText, hentry]
    rfl
  · rw [summary, hentry]
    rfl

end NamelistCatalog.Catalog

namespace NamelistCatalog.Entry

variable {entries entries' : List Entry}

theorem checkAll_eq_none_iff_names :
    checkAll entries = none ↔
      (∀ e ∈ entries, Name.isValid e.name = true ∧ '\n' ∉ e.summary.toList) ∧
        (entries.map key).Nodup := by
  simp only [checkAll_eq_none_iff, check_eq_none_iff, List.Nodup, List.pairwise_map]

theorem checkAll_perm (h : entries'.Perm entries) (haccepted : checkAll entries = none) :
    checkAll entries' = none := by
  rw [checkAll_eq_none_iff_names] at haccepted ⊢
  exact ⟨fun e he => haccepted.1 e (h.mem_iff.mp he), (h.map key).nodup_iff.mpr haccepted.2⟩

theorem sortByName_perm_eq (h : entries'.Perm entries) (haccepted : checkAll entries = none) :
    sortByName entries' = sortByName entries := by
  have hsame : (sortByName entries').Perm (sortByName entries) :=
    ((sortByName_perm entries').trans h).trans (sortByName_perm entries).symm
  have hsorted := (listed_sortByName haccepted).2
  have hsorted' := (listed_sortByName (checkAll_perm h haccepted)).2
  exact eq_of_perm_of_pairwise_key_lt hsame hsorted' hsorted

end NamelistCatalog.Entry

namespace NamelistCatalog.Catalog

theorem ofEntries_perm {info : CatalogInfo} {entries entries' : List Entry} {c : Catalog}
    (h : entries'.Perm entries) (hc : ofEntries info entries = .ok c) :
    ofEntries info entries' = .ok c := by
  obtain ⟨haccepted, hinfo, hsorted⟩ := ofEntries_eq_ok_iff.mp hc
  refine ofEntries_eq_ok_iff.mpr ⟨Entry.checkAll_perm h haccepted, hinfo, ?_⟩
  rw [hsorted, Entry.sortByName_perm_eq h haccepted]

/-- Entries make a catalog exactly when each name is an identifier, each summary one line and no two
names fold to the same one. The catalog lists them in strictly increasing order of their folded names,
whatever order they came in, and a name is answered from the one entry that folds as it does, or
reported as it was asked when there is none. -/
theorem ofEntries_represents (info : CatalogInfo) (entries : List Entry) :
    ((∃ c, ofEntries info entries = .ok c) ↔
        (∀ e ∈ entries, Name.isValid e.name = true ∧ '\n' ∉ e.summary.toList) ∧
          (entries.map Entry.key).Nodup) ∧
      ∀ c, ofEntries info entries = .ok c →
        c.info = info ∧ c.entries.toList.Perm entries ∧
          (c.entries.toList.Pairwise fun a b => a.key < b.key) ∧
          (∀ entries' : List Entry, entries'.Perm entries → ofEntries info entries' = .ok c) ∧
          ∀ name,
            (∃ e ∈ entries, e.key = Name.fold name ∧
                (∀ d ∈ entries, d.key = Name.fold name → d = e) ∧ c.Answers name e) ∨
              (∀ e ∈ entries, e.key ≠ Name.fold name) ∧ c.Lacks name := by
  constructor
  · rw [← Entry.checkAll_eq_none_iff_names]
    constructor
    · rintro ⟨c, hc⟩
      exact (ofEntries_eq_ok_iff.mp hc).1
    · exact exists_ofEntries_eq_ok info
  intro c hc
  obtain ⟨-, hinfo, hsorted⟩ := ofEntries_eq_ok_iff.mp hc
  have hperm : c.entries.toList.Perm entries := by
    rw [hsorted]
    exact Entry.sortByName_perm entries
  refine ⟨hinfo, hperm, c.listed.2, fun entries' h => ofEntries_perm h hc, ?_⟩
  intro name
  cases hfind : c.find? name with
  | none =>
      right
      refine ⟨?_, lacks_of_find? hfind⟩
      intro e he
      exact find?_eq_none_iff.mp hfind e (hperm.mem_iff.mpr he)
  | some e =>
      left
      obtain ⟨hmem, hkey⟩ := find?_eq_some_iff.mp hfind
      refine ⟨e, hperm.mem_iff.mp hmem, hkey, ?_, answers_of_find? hfind⟩
      intro d hd hdkey
      -- The other entry would be found just as well.
      have hother := find?_eq_some_iff.mpr ⟨hperm.mem_iff.mpr hd, hdkey⟩
      rw [hfind] at hother
      exact (Option.some.inj hother).symm

/-- Two entries out of order, one of them with capitals in its name and without a default. -/
def twoEntries : List Entry :=
  [{ name := "beta", version := ⟨"2"⟩, defaultValue := .literal "1", doc := "Second." },
    { name := "ALPHA", version := ⟨"1"⟩, summary := "First." }]

theorem ofEntries_represents_twoEntries :
    ∃ c, ofEntries ⟨currentSchema, ⟨"2"⟩, "now"⟩ twoEntries = .ok c ∧
      c.defaultText "Alpha" = .ok "<no default>" ∧ c.doc "BETA" = .ok "Second." ∧
      c.Lacks "Gamma" := by
  obtain ⟨hiff, hrest⟩ := ofEntries_represents ⟨currentSchema, ⟨"2"⟩, "now"⟩ twoEntries
  obtain ⟨c, hc⟩ := hiff.mpr (by decide +kernel)
  obtain ⟨-, -, -, -, hnames⟩ := hrest c hc
  have hanswers : ∀ e ∈ twoEntries, ∀ name, e.key = Name.fold name → c.Answers name e := by
    intro e he name hkey
    rcases hnames name with ⟨d, -, -, hone, hanswers⟩ | ⟨hnone, -⟩
    · rw [hone e he hkey]
      exact hanswers
    · exact absurd hkey (hnone e he)
  have halpha := hanswers { name := "ALPHA", version := ⟨"1"⟩, summary := "First." }
    (by simp [twoEntries]) "Alpha" (by decide +kernel)
  have hbeta := hanswers
    { name := "beta", version := ⟨"2"⟩, defaultValue := .literal "1", doc := "Second." }
    (by simp [twoEntries]) "BETA" (by decide +kernel)
  refine ⟨c, hc, halpha.defaultText, hbeta.doc, ?_⟩
  rcases hnames "Gamma" with ⟨e, he, hkey, -⟩ | ⟨-, hlacks⟩
  · exact absurd hkey ((by decide +kernel : ∀ e ∈ twoEntries, e.key ≠ Name.fold "Gamma") e he)
  · exact hlacks

end NamelistCatalog.Catalog
