import NamelistCatalog.Layout
import NamelistCatalog.Proofs.Files.Path
import NamelistCatalog.Proofs.Version.Numbers

namespace NamelistCatalog

namespace Text

variable {digits : List Char} {n : Nat}

theorem of_count?_eq_some (h : count? digits = some n) : digits ≠ [] ∧ decimalValue digits = n := by
  rw [count?] at h
  split at h
  · cases h
  · rename_i hdigits
    rw [Bool.or_eq_true, not_or, List.isEmpty_iff] at hdigits
    split at h
    · exact ⟨hdigits.1, Option.some.inj h⟩
    · cases h

theorem count?_of_le (hne : digits ≠ []) (hdigits : ∀ c ∈ digits, c.isDigit = true)
    (hle : decimalValue digits ≤ maxCount) : count? digits = some (decimalValue digits) := by
  rw [count?, if_neg, if_pos hle]
  rw [Bool.or_eq_true, not_or, List.isEmpty_iff, List.all_eq_true.mpr hdigits]
  exact ⟨hne, by decide⟩

end Text

namespace SourceVersion

variable {v a b : SourceVersion} {limit : Nat}

/-- The label starts with digits, as many as there are, whose value is below the limit. -/
def StartsBelow (v : SourceVersion) (limit : Nat) : Prop :=
  ∃ digits rest, v.text.toList = digits ++ rest ∧ digits ≠ [] ∧ (∀ c ∈ digits, c.isDigit = true) ∧
    (∀ c ∈ rest.head?, c.isDigit = false) ∧ Text.decimalValue digits < limit

theorem number?_eq_count? {digits rest : List Char} (htext : v.text.toList = digits ++ rest)
    (hdigits : ∀ c ∈ digits, c.isDigit = true) (hrest : ∀ c ∈ rest.head?, c.isDigit = false) :
    v.number? = Text.count? digits := by
  rw [number?, htext, Text.takeWhile_append_of_head? hdigits hrest]

theorem exists_run (hne : v.text ≠ "") :
    ∃ digit run rest, v.text.toList = run ++ rest ∧ run ≠ [] ∧ (∀ c ∈ run, c.isDigit = digit) ∧
      ∀ c ∈ rest.head?, c.isDigit ≠ digit := by
  obtain ⟨c, s, hs⟩ := List.exists_cons_of_ne_nil (String.toList_eq_nil_iff.not.mpr hne)
  rw [hs]
  let sameKind : Char → Bool := fun d => d.isDigit == c.isDigit
  have hc : sameKind c = true := beq_self_eq_true _
  refine ⟨c.isDigit, (c :: s).takeWhile sameKind, (c :: s).dropWhile sameKind,
    List.takeWhile_append_dropWhile.symm, ?_, ?_, ?_⟩
  · rw [List.takeWhile_cons_of_pos hc]
    exact List.cons_ne_nil _ _
  · intro d hd
    exact beq_iff_eq.mp (List.all_eq_true.mp (List.all_takeWhile (p := sameKind)) d hd)
  · intro d hd
    exact beq_eq_false_iff_ne.mp (Text.eq_false_of_mem_head?_dropWhile (p := sameKind) hd)

/-- A label below one that starts with a small number starts with a small number itself. -/
theorem StartsBelow.of_isLE (h : b.StartsBelow limit) (hne : a.text ≠ "")
    (hle : (Ord.compare a b).isLE = true) : a.StartsBelow limit := by
  obtain ⟨digits, rest, hb, hdigits, hdigit, hrest, hvalue⟩ := h
  obtain ⟨digit, run, more, ha, hrun, hkind, hmore⟩ := exists_run hne
  have hchunksB : chunks b.text.toList = Chunk.ofRun digits :: chunks rest := by
    rw [hb, chunks_run_append hdigits hdigit fun c hc => by simp [hrest c hc]]
  have hchunksA : chunks a.text.toList = Chunk.ofRun run :: chunks more := by
    rw [ha, chunks_run_append hrun hkind hmore]
  -- The first chunks decide, and a run of other characters comes after every number.
  have hfirst : (Ord.compare (Chunk.ofRun run) (Chunk.ofRun digits)).isLE = true := by
    have hchunks := Ordering.isLE_left_of_isLE_then (compare_eq_then a b ▸ hle)
    rw [hchunksA, hchunksB, List.compare_eq_compareLex, List.compareLex_cons_cons] at hchunks
    exact Ordering.isLE_left_of_isLE_then hchunks
  cases digit with
  | false =>
      rw [Chunk.ofRun_of_not_isDigit hrun hkind, Chunk.ofRun_of_isDigit hdigits hdigit] at hfirst
      cases hfirst
  | true =>
      rw [Chunk.compare_ofRun hrun hdigits hkind hdigit, Nat.isLE_compare] at hfirst
      exact ⟨run, more, ha, hrun, hkind, fun c hc => by simpa using hmore c hc,
        Nat.lt_of_le_of_lt hfirst hvalue⟩

end SourceVersion

namespace Layout

variable {v : SourceVersion} {document : Path}

/-- Whether a document is among those that describe the namelists of a release. -/
def Uses (v : SourceVersion) (document : Path) : Prop :=
  ∃ n ∈ namelists v, document ∈ n.defaults ++ n.declarations

def freeFormControls : Path := .ofText "star/private/ctrls_io.f90"

def fixedFormControls : Path := .ofText "star/private/ctrls_io.f"

theorem uses_freeFormControls_iff : Uses v freeFormControls ↔ isFreeForm v = true := by
  cases h : isFreeForm v <;> simp [Uses, namelists, controlsDocument, freeFormControls, h]

theorem uses_fixedFormControls_iff : Uses v fixedFormControls ↔ isFreeForm v = false := by
  cases h : isFreeForm v <;> simp [Uses, namelists, controlsDocument, fixedFormControls, h]

theorem isFreeForm_eq_false_iff : isFreeForm v = false ↔ v.StartsBelow freeFormSince := by
  constructor
  · intro h
    rw [isFreeForm] at h
    split at h
    · rename_i n hn
      rw [SourceVersion.number?] at hn
      obtain ⟨hne, hvalue⟩ := Text.of_count?_eq_some hn
      refine ⟨v.text.toList.takeWhile Char.isDigit, v.text.toList.dropWhile Char.isDigit,
        List.takeWhile_append_dropWhile.symm, hne, List.all_eq_true.mp List.all_takeWhile,
        fun _ => Text.eq_false_of_mem_head?_dropWhile, ?_⟩
      rw [hvalue]
      simpa using h
    · cases h
  · rintro ⟨digits, rest, htext, hne, hdigits, hrest, hvalue⟩
    have hcount : freeFormSince ≤ Text.maxCount := by decide
    rw [isFreeForm, SourceVersion.number?_eq_count? htext hdigits hrest,
      Text.count?_of_le hne hdigits (Nat.le_trans (Nat.le_of_lt hvalue) hcount)]
    simpa using hvalue

/-- Of two releases with labels, the later one has the controls in free form if the earlier one has.
The controls are in fixed form exactly in the releases that start with a number below the first
free-form one, however many digits that number has. -/
theorem freeForm_stays {a b : SourceVersion} (hne : a.text ≠ "") (hle : (compare a b).isLE = true) :
    (Uses a freeFormControls → Uses b freeFormControls) ∧
      ∀ v, Uses v fixedFormControls ↔ v.StartsBelow freeFormSince := by
  refine ⟨?_, fun v => uses_fixedFormControls_iff.trans isFreeForm_eq_false_iff⟩
  rw [uses_freeFormControls_iff, uses_freeFormControls_iff]
  intro ha
  by_contra hb
  have hfixed := isFreeForm_eq_false_iff.mp (Bool.eq_false_iff.mpr hb)
  rw [isFreeForm_eq_false_iff.mpr (hfixed.of_isLE hne hle)] at ha
  cases ha

theorem freeForm_stays_largeNumber :
    (⟨"07380"⟩ : SourceVersion).text ≠ "" ∧
      (compare (⟨"07380"⟩ : SourceVersion) ⟨"100000000000000000000"⟩).isLE = true ∧
      Uses ⟨"07380"⟩ freeFormControls ∧ Uses ⟨"100000000000000000000"⟩ freeFormControls := by
  have hne : (⟨"07380"⟩ : SourceVersion).text ≠ "" := by decide
  have hle : (compare (⟨"07380"⟩ : SourceVersion) ⟨"100000000000000000000"⟩).isLE = true := by
    decide +kernel
  have hearlier : Uses ⟨"07380"⟩ freeFormControls :=
    uses_freeFormControls_iff.mpr (by decide +kernel)
  exact ⟨hne, hle, hearlier, (freeForm_stays hne hle).1 hearlier⟩

end Layout

end NamelistCatalog
