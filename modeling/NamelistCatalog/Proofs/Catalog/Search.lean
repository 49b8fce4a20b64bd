import Mathlib.Tactic.ByContra
import NamelistCatalog.Proofs.Catalog.Query
import NamelistCatalog.Proofs.Text.Case
import NamelistCatalog.Proofs.Text.Search

namespace NamelistCatalog.Catalog

/-- The names that answer a search for some of the entries: each once, in increasing order of the
folded names. -/
structure Lists (c : Catalog) (found : Entry → Prop) (names : List String) : Prop where
  mem : ∀ name, name ∈ names ↔ ∃ e ∈ c.entries.toList, e.name = name ∧ found e
  nodup : names.Nodup
  increasing : names.Pairwise fun a b => Name.fold a < Name.fold b

/-- The pattern occurs in the summary or in the documentation when all of them are in lower case. -/
def Matches (pattern : String) (e : Entry) : Prop :=
  Text.lower pattern.toList <:+: Text.lower e.summary.toList ∨
    Text.lower pattern.toList <:+: Text.lower e.doc.toList

/-- The pattern stands in the summary or in the documentation exactly as it is written. -/
def Quotes (pattern : String) (e : Entry) : Prop :=
  pattern.toList <:+: e.summary.toList ∨ pattern.toList <:+: e.doc.toList

variable {c : Catalog} {patterns names names' : List String} {found found' : Entry → Prop}
  {d e : Entry} {p : String}

theorem eq_of_name_eq (hd : d ∈ c.entries.toList) (he : e ∈ c.entries.toList)
    (hname : d.name = e.name) : d = e := by
  have hfound : c.find? e.name = some d :=
    find?_eq_some_iff.mpr ⟨hd, congrArg Name.fold hname⟩
  have hself : c.find? e.name = some e := find?_eq_some_iff.mpr ⟨he, rfl⟩
  exact Option.some.inj (hfound.symm.trans hself)

theorem Lists.mem_name_iff (h : c.Lists found names) (he : e ∈ c.entries.toList) :
    e.name ∈ names ↔ found e := by
  rw [h.mem]
  constructor
  · rintro ⟨d, hd, hname, hfound⟩
    rw [← eq_of_name_eq hd he hname]
    exact hfound
  · intro hfound
    exact ⟨e, he, rfl, hfound⟩

theorem Lists.congr (h : c.Lists found names) (hfound : ∀ e, found e ↔ found' e) :
    c.Lists found' names where
  mem name := by
    rw [h.mem]
    simp only [hfound]
  nodup := h.nodup
  increasing := h.increasing

theorem Lists.eq (h : c.Lists found names) (h' : c.Lists found names') : names = names' := by
  have hperm : names.Perm names' :=
    (List.perm_ext_iff_of_nodup h.nodup h'.nodup).mpr fun name => by rw [h.mem, h'.mem]
  exact hperm.eq_of_pairwise (fun _ _ _ _ hab hba => absurd hba (String.lt_asymm hab)) h.increasing
    h'.increasing

theorem lists_filter (c : Catalog) (keep : Entry → Bool) :
    c.Lists (fun e => keep e = true) ((c.entries.toList.filter keep).map Entry.name) := by
  have hincreasing : ((c.entries.toList.filter keep).map Entry.name).Pairwise
      fun a b => Name.fold a < Name.fold b :=
    List.pairwise_map.mpr (c.listed.2.sublist List.filter_sublist)
  refine ⟨?_, ?_, hincreasing⟩
  · intro name
    simp only [List.mem_map, List.mem_filter]
    constructor
    · rintro ⟨e, ⟨he, hkeep⟩, hname⟩
      exact ⟨e, he, hname, hkeep⟩
    · rintro ⟨e, he, hname, hkeep⟩
      exact ⟨e, ⟨he, hkeep⟩, hname⟩
  · refine hincreasing.imp ?_
    rintro a b hlt rfl
    exact String.lt_irrefl _ hlt

/-- A search with a pattern lists the entries in whose text some pattern occurs in lower case. -/
theorem exists_lists_search (c : Catalog) (text : Entry → List Char) (hpatterns : patterns ≠ []) :
    ∃ names, c.search text patterns = .ok names ∧
      c.Lists (fun e => ∃ p ∈ patterns, Text.lower p.toList <:+: text e) names := by
  have hsome : patterns.isEmpty = false := List.isEmpty_eq_false_iff.mpr hpatterns
  refine ⟨_, by rw [search, hsome]; rfl, (lists_filter c _).congr ?_⟩
  intro e
  simp only [List.any_map, List.any_eq_true, Function.comp_apply, Text.contains_iff_isInfix]

theorem isInfix_searchText_iff (hp : '\n' ∉ p.toList) :
    Text.lower p.toList <:+: searchText e ↔ Matches p e := by
  rw [searchText, Text.lower_append_newline, ← Text.contains_iff_isInfix,
    Text.contains_append_cons (Text.newline_not_mem_lower hp), Bool.or_eq_true,
    Text.contains_iff_isInfix, Text.contains_iff_isInfix, Matches]

/-- A search of the documentation with patterns of one line lists the entries of which the summary or
the documentation, each on its own, has some pattern in it. How often a pattern is given and in which
order does not matter. -/
theorem searchDocs_lists_matches (c : Catalog) (patterns : List String) (hpatterns : patterns ≠ [])
    (hlines : ∀ p ∈ patterns, '\n' ∉ p.toList) :
    ∃ names, c.searchDocs patterns = .ok names ∧ c.Lists (fun e => ∃ p ∈ patterns, Matches p e) names ∧
      ∀ patterns' : List String, (∀ p, p ∈ patterns' ↔ p ∈ patterns) →
        c.searchDocs patterns' = .ok names := by
  have hanswer : ∀ patterns' : List String, (∀ p, p ∈ patterns' ↔ p ∈ patterns) →
      ∃ names, c.searchDocs patterns' = .ok names ∧
        c.Lists (fun e => ∃ p ∈ patterns, Matches p e) names := by
    intro patterns' hsame
    have hne : patterns' ≠ [] := by
      obtain ⟨p, hp⟩ := List.exists_mem_of_ne_nil patterns hpatterns
      exact List.ne_nil_of_mem ((hsame p).mpr hp)
    obtain ⟨names, hsearch, hlists⟩ := exists_lists_search c searchText hne
    refine ⟨names, hsearch, hlists.congr ?_⟩
    intro e
    refine exists_congr ?_
    intro p
    rw [hsame]
    exact and_congr_right fun hp => isInfix_searchText_iff (hlines p hp)
  obtain ⟨names, hsearch, hlists⟩ := hanswer patterns fun p => Iff.rfl
  refine ⟨names, hsearch, hlists, ?_⟩
  intro patterns' hsame
  obtain ⟨names', hsearch', hlists'⟩ := hanswer patterns' hsame
  rw [hsearch', hlists'.eq hlists]

/-- Two entries, one with a word in capitals that ends in a sigma for its summary. -/
def shoutedWord : Catalog :=
  { info := { schemaVersion := currentSchema, sourceVersion := ⟨"1"⟩, generatedAt := "now" }
    entries :=
      #[{ name := "a", version := ⟨"1"⟩, summary := "\u039f\u03a3", doc := "x" },
        { name := "B", version := ⟨"1"⟩, doc := "Bar\nFoo" }]
    listed := ⟨by decide +kernel, by decide +kernel⟩ }

theorem searchDocs_lists_matches_shoutedWord :
    (∀ p ∈ ["FOO", "\u03bf\u03c2", "FOO"], '\n' ∉ p.toList) ∧
      shoutedWord.searchDocs ["FOO", "\u03bf\u03c2", "FOO"] = .ok ["a", "B"] ∧
      shoutedWord.Lists (fun e => ∃ p ∈ ["FOO", "\u03bf\u03c2", "FOO"], Matches p e) ["a", "B"] := by
  have hlines : ∀ p ∈ ["FOO", "\u03bf\u03c2", "FOO"], '\n' ∉ p.toList := by decide +kernel
  have hanswer : shoutedWord.searchDocs ["FOO", "\u03bf\u03c2", "FOO"] = .ok ["a", "B"] := by
    decide +kernel
  obtain ⟨names, hnames, hlists, -⟩ :=
    searchDocs_lists_matches shoutedWord ["FOO", "\u03bf\u03c2", "FOO"] (by simp) hlines
  rw [hanswer] at hnames
  obtain rfl := Except.ok.inj hnames
  exact ⟨hlines, hanswer, hlists⟩

theorem quotes_isInfix_searchText (hquotes : Quotes p e) :
    p.toList <:+: e.summary.toList ++ '\n' :: e.doc.toList := by
  rcases hquotes with hsummary | hdoc
  · exact hsummary.trans (List.prefix_append _ _).isInfix
  · exact hdoc.trans ((List.suffix_cons '\n' _).trans (List.suffix_append _ _)).isInfix

/-- A catalog of one entry with this documentation. -/
def documenting (doc : String) : Catalog :=
  { info := { schemaVersion := currentSchema, sourceVersion := ⟨"1"⟩, generatedAt := "now" }
    entries := #[{ name := "a", version := ⟨"1"⟩, doc }]
    listed := by
      refine ⟨?_, List.pairwise_singleton _ _⟩
      intro e he
      rw [List.mem_singleton.mp he]
      have hname : Name.isValid "a" = true := by decide +kernel
      exact Entry.check_eq_none_iff.mpr ⟨hname, by simp⟩ }

theorem mem_searchDocs_iff (he : e ∈ c.entries.toList) :
    (∃ names, c.searchDocs [p] = .ok names ∧ e.name ∈ names) ↔
      Text.lower p.toList <:+: searchText e := by
  obtain ⟨names, hsearch, hlists⟩ :=
    exists_lists_search c searchText (List.cons_ne_nil p [])
  have hname := hlists.mem_name_iff he
  simp only [List.mem_singleton, exists_eq_left] at hname
  rw [← hname]
  constructor
  · rintro ⟨names', hsearch', hmem⟩
    obtain rfl := Except.ok.inj (hsearch.symm.trans hsearch')
    exact hmem
  · intro hmem
    exact ⟨names, hsearch, hmem⟩

/-- A search for a text as it stands finds every entry that quotes it, in every catalog, exactly when
the text settles its capital sigmas. -/
theorem searchDocs_finds_quotes_iff (p : String) :
    (∀ (c : Catalog) (e : Entry), e ∈ c.entries.toList → Quotes p e →
        ∃ names, c.searchDocs [p] = .ok names ∧ e.name ∈ names) ↔
      Text.SettlesSigmas p.toList := by
  constructor
  · intro hfinds
    by_contra hopen
    obtain ⟨t, hquoted, letter, hletter, hfewer⟩ := Text.exists_count_lt hopen
    have hquotes : Quotes p { name := "a", version := ⟨"1"⟩, doc := String.ofList t } :=
      .inr (by simpa using hquoted)
    have hfound := (mem_searchDocs_iff (by simp [documenting])).mp
      (hfinds (documenting (String.ofList t)) _ (by simp [documenting]) hquotes)
    -- The lower case of the documentation has one of the sigmas less than that of the pattern.
    rw [searchText, Text.lower_append_newline] at hfound
    have hcount := hfound.sublist.count_le letter
    simp [List.count_cons_of_ne hletter.symm] at hcount
    omega
  · intro hsettles c e he hquotes
    rw [mem_searchDocs_iff he]
    exact hsettles.lower_isInfix (quotes_isInfix_searchText hquotes)

theorem not_forall_searchDocs_finds_quotes :
    ¬∀ (c : Catalog) (e : Entry) (p : String), e ∈ c.entries.toList → Quotes p e →
      ∃ names, c.searchDocs [p] = .ok names ∧ e.name ∈ names := by
  intro hfinds
  have hquotes : Quotes "\u0391\u03a3"
      { name := "a", version := ⟨"1"⟩, doc := "\u0391\u03a3\u0391" } :=
    .inr ⟨[], ['\u0391'], by decide +kernel⟩
  have hnone : (documenting "\u0391\u03a3\u0391").searchDocs ["\u0391\u03a3"] = .ok [] := by
    decide +kernel
  obtain ⟨names, hnames, hmem⟩ := hfinds (documenting "\u0391\u03a3\u0391") _ "\u0391\u03a3"
    (by simp [documenting]) hquotes
  rw [hnone] at hnames
  obtain rfl := Except.ok.inj hnames
  cases hmem

end NamelistCatalog.Catalog
