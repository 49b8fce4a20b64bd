import NamelistCatalog.Proofs.Catalog.Search

/-!
Names by how they start. In the order of the folded names those with one start are neighbours, and
they follow the place of the start itself, so halving and then walking on finds what a scan of the
whole catalog finds. What several starts give is put in order again, which brings the repetitions of
a name together.
-/

namespace NamelistCatalog.Text

variable {s t u : List Char}

theorem not_lt_of_isPrefix (h : s <+: t) : ¬t < s := h.le

theorem isPrefix_of_between (hlow : ¬t < s) (hhigh : t < u) (h : s <+: u) : s <+: t := by
  induction s generalizing t u with
  | nil => exact List.nil_prefix
  | cons c s ih =>
      obtain ⟨rest, rfl⟩ := h
      rw [List.cons_append] at hhigh
      cases t with
      | nil => exact absurd (List.nil_lt_cons c s) hlow
      | cons d t =>
          rw [List.cons_lt_cons_iff, not_or, not_and] at hlow
          rcases List.cons_lt_cons_iff.mp hhigh with hless | ⟨rfl, hless⟩
          · exact absurd hless hlow.1
          · exact List.cons_prefix_cons.mpr
              ⟨rfl, ih (hlow.2 rfl) hless (List.prefix_append s rest)⟩

end NamelistCatalog.Text

namespace NamelistCatalog.Catalog

/-- The folded name of the entry starts with the lower case of the text. -/
def Starts (start : String) (e : Entry) : Prop := Text.lower start.toList <+: Text.lower e.name.toList

instance (start : String) (e : Entry) : Decidable (Starts start e) :=
  inferInstanceAs (Decidable (_ <+: _))

variable {c : Catalog} {d e : Entry} {start name : String} {names : List String}

theorem starts_iff : Starts start e ↔ (Name.fold start).toList <+: e.key.toList := by
  rw [Starts, Entry.key, Name.toList_fold, Name.toList_fold]

theorem not_key_lt_of_starts (h : Starts start e) : ¬e.key < Name.fold start :=
  Text.not_lt_of_isPrefix (starts_iff.mp h)

theorem starts_of_key_lt (hlow : ¬d.key < Name.fold start) (hhigh : d.key < e.key)
    (h : Starts start e) : Starts start d :=
  starts_iff.mpr (Text.isPrefix_of_between hlow hhigh (starts_iff.mp h))

/-- A walk that stops at the first element without a property finds all that have it, if no element
has it behind one that lacks it. -/
theorem takeWhile_eq_filter {α : Type} {p : α → Bool} {l : List α}
    (h : l.Pairwise fun a b => p b = true → p a = true) : l.takeWhile p = l.filter p := by
  induction l with
  | nil => rfl
  | cons a l ih =>
      rw [List.pairwise_cons] at h
      cases ha : p a with
      | true =>
          rw [List.takeWhile_cons_of_pos ha, List.filter_cons_of_pos ha, ih h.2]
      | false =>
          have hnone : ∀ b ∈ l, ¬p b = true := by
            intro b hb hkept
            rw [h.1 b hb hkept] at ha
            cases ha
          rw [List.takeWhile_cons_of_neg (by simp [ha]), List.filter_cons_of_neg (by simp [ha]),
            List.filter_eq_nil_iff.mpr hnone]

theorem key_lt_of_mem_take {key : String} (h : e ∈ c.entries.toList.take (c.place key)) :
    e.key < key := by
  obtain ⟨i, hi, rfl⟩ := List.mem_take_iff_getElem.mp h
  rw [Array.length_toList, Nat.lt_min] at hi
  exact (lt_place_iff hi.2).mp hi.1

theorem not_key_lt_of_mem_drop {key : String} (h : e ∈ c.entries.toList.drop (c.place key)) :
    ¬e.key < key := by
  obtain ⟨i, hi, rfl⟩ := List.mem_drop_iff_getElem.mp h
  rw [Array.length_toList, Nat.add_comm] at hi
  intro hless
  exact absurd ((lt_place_iff hi).mpr hless) (by omega)

theorem entriesFrom_eq (c : Catalog) (start : String) :
    c.entriesFrom start = c.entries.toList.filter fun e => Starts start e := by
  have hsame : (fun e : Entry => (Name.fold start).toList.isPrefixOf e.key.toList) =
      fun e => decide (Starts start e) := by
    funext e
    rw [Bool.eq_iff_iff, List.isPrefixOf_iff_prefix, decide_eq_true_iff, starts_iff]
  have hskipped : (c.entries.toList.take (c.place (Name.fold start))).filter
      (fun e => Starts start e) = [] := by
    rw [List.filter_eq_nil_iff]
    intro e he hstarts
    exact not_key_lt_of_starts (of_decide_eq_true hstarts) (key_lt_of_mem_take he)
  have hwalked : (c.entries.toList.drop (c.place (Name.fold start))).Pairwise fun d e =>
      decide (Starts start e) = true → decide (Starts start d) = true := by
    have hlisted := c.listed.2.sublist (List.drop_sublist (c.place (Name.fold start)) _)
    refine hlisted.imp_of_mem ?_
    intro d e hd _ hless hstarts
    exact decide_eq_true
      (starts_of_key_lt (not_key_lt_of_mem_drop hd) hless (of_decide_eq_true hstarts))
  calc c.entriesFrom start
      = (c.entries.toList.drop (c.place (Name.fold start))).filter fun e => Starts start e := by
        rw [entriesFrom, hsame, takeWhile_eq_filter hwalked]
    _ = (c.entries.toList.take (c.place (Name.fold start)) ++
          c.entries.toList.drop (c.place (Name.fold start))).filter fun e => Starts start e := by
        rw [List.filter_append, hskipped, List.nil_append]
    _ = c.entries.toList.filter fun e => Starts start e := by
        rw [List.take_append_drop]

theorem lists_namesFrom (c : Catalog) (start : String) :
    c.Lists (Starts start) (c.namesFrom start) := by
  rw [namesFrom, entriesFrom_eq]
  exact (lists_filter c _).congr fun e => decide_eq_true_iff

theorem nameTextLe_trans (a b c : String) (hab : nameTextLe a b = true)
    (hbc : nameTextLe b c = true) : nameTextLe a c = true :=
  Entry.nameLe_trans { name := a, version := ⟨""⟩ } { name := b, version := ⟨""⟩ }
    { name := c, version := ⟨""⟩ } hab hbc

theorem nameTextLe_total (a b : String) : (nameTextLe a b || nameTextLe b a) = true :=
  Entry.nameLe_total { name := a, version := ⟨""⟩ } { name := b, version := ⟨""⟩ }

theorem fold_le_of_nameTextLe {a b : String} (h : nameTextLe a b = true) :
    ¬Name.fold b < Name.fold a := by
  rw [nameTextLe, Bool.or_eq_true, Bool.and_eq_true, decide_eq_true_iff, beq_iff_eq] at h
  rcases h with hless | ⟨hsame, -⟩
  · exact String.lt_asymm hless
  · rw [hsame]
    exact String.lt_irrefl _

theorem mem_dropRepeats : name ∈ dropRepeats names ↔ name ∈ names := by
  fun_induction dropRepeats names with
  | case1 => rfl
  | case2 => rfl
  | case3 a b rest hsame ih =>
      rw [beq_iff_eq] at hsame
      subst hsame
      rw [ih]
      simp
  | case4 a b rest _ ih => rw [List.mem_cons, ih, ← List.mem_cons]

theorem increasing_dropRepeats (hsorted : names.Pairwise fun a b => nameTextLe a b = true)
    (hnames : ∀ a ∈ names, ∀ b ∈ names, Name.fold a = Name.fold b → a = b) :
    (dropRepeats names).Pairwise fun a b => Name.fold a < Name.fold b := by
  fun_induction dropRepeats names with
  | case1 => exact List.Pairwise.nil
  | case2 => exact List.pairwise_singleton _ _
  | case3 a b rest _ ih =>
      exact ih hsorted.of_cons fun x hx y hy =>
        hnames x (List.mem_cons_of_mem a hx) y (List.mem_cons_of_mem a hy)
  | case4 a b rest hnew ih =>
      rw [beq_iff_eq] at hnew
      obtain ⟨hfirst, hrest⟩ := List.pairwise_cons.mp hsorted
      have hab : Name.fold a < Name.fold b := by
        by_contra hless
        have hsame := String.le_antisymm hless (fold_le_of_nameTextLe (hfirst b List.mem_cons_self))
        exact hnew (hnames a (by simp) b (by simp) hsame.symm)
      refine List.pairwise_cons.mpr ⟨?_, ih hrest fun x hx y hy =>
        hnames x (List.mem_cons_of_mem a hx) y (List.mem_cons_of_mem a hy)⟩
      intro x hx
      rcases List.mem_cons.mp (mem_dropRepeats.mp hx) with rfl | hx
      · exact hab
      · have hbx := fold_le_of_nameTextLe ((List.pairwise_cons.mp hrest).1 x hx)
        by_contra hless
        exact String.le_trans hbx hless hab

theorem exists_lists_namesFromAny (c : Catalog) {starts : List String} (hstarts : starts ≠ []) :
    ∃ names, c.namesFromAny starts = .ok names ∧
      c.Lists (fun e => ∃ start ∈ starts, Starts start e) names := by
  have hsome : starts.isEmpty = false := List.isEmpty_eq_false_iff.mpr hstarts
  have hmem : ∀ name, name ∈ dropRepeats ((starts.flatMap c.namesFrom).mergeSort nameTextLe) ↔
      ∃ e ∈ c.entries.toList, e.name = name ∧ ∃ start ∈ starts, Starts start e := by
    intro name
    rw [mem_dropRepeats, List.mem_mergeSort, List.mem_flatMap]
    simp only [(lists_namesFrom c _).mem]
    constructor
    · rintro ⟨start, hstart, e, he, hname, hfound⟩
      exact ⟨e, he, hname, start, hstart, hfound⟩
    · rintro ⟨e, he, hname, start, hstart, hfound⟩
      exact ⟨start, hstart, e, he, hname, hfound⟩
  have hincreasing : (dropRepeats ((starts.flatMap c.namesFrom).mergeSort nameTextLe)).Pairwise
      fun a b => Name.fold a < Name.fold b := by
    apply increasing_dropRepeats
    · exact List.pairwise_mergeSort nameTextLe_trans nameTextLe_total _
    · intro a ha b hb hsame
      obtain ⟨d, hd, rfl, -⟩ := (hmem a).mp (mem_dropRepeats.mpr ha)
      obtain ⟨e, he, rfl, -⟩ := (hmem b).mp (mem_dropRepeats.mpr hb)
      have hfound : c.find? e.name = some d := find?_eq_some_iff.mpr ⟨hd, hsame⟩
      rw [find?_eq_some_iff.mpr ⟨he, rfl⟩] at hfound
      rw [Option.some.inj hfound]
  refine ⟨_, by rw [namesFromAny, hsome]; rfl, hmem, ?_, hincreasing⟩
  refine hincreasing.imp ?_
  rintro a b hless rfl
  exact String.lt_irrefl _ hless

/-- The names with a start are those that a scan of the catalog finds, each once and in the order of
the catalog, and so are the names with one of several starts, however these overlap. -/
theorem namesFrom_scans (c : Catalog) :
    (∀ start,
        c.namesFrom start = (c.entries.toList.filter fun e => Starts start e).map Entry.name ∧
          (c.namesFrom start).Nodup) ∧
      ∀ starts : List String, starts ≠ [] →
        ∃ names, c.namesFromAny starts = .ok names ∧ names.Nodup ∧
          names = (c.entries.toList.filter fun e => ∃ start ∈ starts, Starts start e).map
            Entry.name := by
  constructor
  · intro start
    exact ⟨by rw [namesFrom, entriesFrom_eq], (lists_namesFrom c start).nodup⟩
  · intro starts hstarts
    obtain ⟨names, hnames, hlists⟩ := exists_lists_namesFromAny c hstarts
    have hscan := (lists_filter c fun e => ∃ start ∈ starts, Starts start e).congr
      fun e => decide_eq_true_iff
    exact ⟨names, hnames, hlists.nodup, hlists.eq hscan⟩

/-- Four entries of which the last two start alike. -/
def fourNames : Catalog :=
  { info := { schemaVersion := currentSchema, sourceVersion := ⟨"1"⟩, generatedAt := "now" }
    entries :=
      #[{ name := "Kappa", version := ⟨"1"⟩ }, { name := "mass", version := ⟨"1"⟩ },
        { name := "X_ctrl", version := ⟨"1"⟩ }, { name := "x_max", version := ⟨"1"⟩ }]
    listed := ⟨by decide +kernel, by decide +kernel⟩ }

/-- The starts overlap, one of them is past all names, and the lower case of a Kelvin sign is that of
a letter. -/
theorem namesFrom_scans_fourNames :
    ["x_", "X_C", "zz", "\u212aap"] ≠ [] ∧ fourNames.namesFrom "X_" = ["X_ctrl", "x_max"] ∧
      fourNames.namesFromAny ["x_", "X_C", "zz", "\u212aap"] = .ok ["Kappa", "X_ctrl", "x_max"] := by
  have hstarts : ["x_", "X_C", "zz", "\u212aap"] ≠ [] := by simp
  obtain ⟨names, hnames, -, hscan⟩ := (namesFrom_scans fourNames).2 _ hstarts
  refine ⟨hstarts, ?_, ?_⟩
  · rw [((namesFrom_scans fourNames).1 "X_").1]
    decide +kernel
  · rw [hnames, hscan]
    decide +kernel

end NamelistCatalog.Catalog
